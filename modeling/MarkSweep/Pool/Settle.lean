import MarkSweep.Pool.Machine
import MarkSweep.Total

namespace MarkSweep

variable {β ε ρ : Type}

/-- What the task that a request would queue counts for. -/
def Request.weight (size : β → Nat) : Request β → Nat
  | execute body _ | submit body _ | spawnMember _ body _ => size body
  | signalWork | signalWait | finalize => 0

/-- Bodies with sizes that bound the steps that are left to them. A step of one task makes no other
task larger, so that tasks left alone all end or wait. -/
class Body.Sized (B : Body β ε ρ) where
  /-- A bound on what is left to do. -/
  size : ε → β → Nat
  /-- A step leaves less to do. -/
  size_next : ∀ {worker thread env body env' rest},
    B.step worker thread env body = .next env' rest → size env' rest < size env body
  /-- A step leaves no more to do for others. -/
  size_next_le : ∀ {worker thread env body env' rest},
    B.step worker thread env body = .next env' rest → ∀ other, size env' other ≤ size env other
  /-- To become an owner is a step. -/
  size_adopt : ∀ {worker thread env body rest},
    B.step worker thread env body = .adopt rest → ∀ owned, size env (rest owned) < size env body
  /-- Closing the pool was paid for. -/
  size_giveUp : ∀ {worker thread env body rest},
    B.step worker thread env body = .giveUp rest → size env rest + 5 ≤ size env body
  /-- What the pool does on request was paid for. -/
  size_ask : ∀ {worker thread env body request rest},
    B.step worker thread env body = .ask request rest →
      ∀ reply, request.weight (size env) + size env (rest reply) + 5 ≤ size env body
  /-- An end leaves no more to do for others. -/
  size_finish_le : ∀ {worker thread env body env' outcome},
    B.step worker thread env body = .finish env' outcome →
      ∀ other, size env' other ≤ size env other

/-- Sizes for bodies that never ask anything of their pool. -/
abbrev Body.IsPlain.sized {B : Body β ε ρ} (hplain : B.IsPlain) (size : ε → β → Nat)
    (size_next : ∀ {worker thread env body env' rest},
      B.step worker thread env body = .next env' rest → size env' rest < size env body)
    (size_next_le : ∀ {worker thread env body env' rest},
      B.step worker thread env body = .next env' rest →
        ∀ other, size env' other ≤ size env other)
    (size_finish_le : ∀ {worker thread env body env' outcome},
      B.step worker thread env body = .finish env' outcome →
        ∀ other, size env' other ≤ size env other) : B.Sized where
  size := size
  size_next := size_next
  size_next_le := size_next_le
  size_adopt h := by
    obtain ⟨_, _, hmove⟩ | ⟨_, _, hmove⟩ := hplain _ _ _ _ <;> cases hmove.symm.trans h
  size_giveUp h := by
    obtain ⟨_, _, hmove⟩ | ⟨_, _, hmove⟩ := hplain _ _ _ _ <;> cases hmove.symm.trans h
  size_ask h := by
    obtain ⟨_, _, hmove⟩ | ⟨_, _, hmove⟩ := hplain _ _ _ _ <;> cases hmove.symm.trans h
  size_finish_le := size_finish_le

/-- What a stage counts for, where `size` bounds what bodies have still to do. -/
def Stage.weight (size : β → Nat) : Stage β → Nat
  | awake _ | parked | exited | dead => 0
  | running task => size task.body + 2
  | signalling task | announcing task => size task.body + 3
  | closing _ .begun task => size task.body + 6
  | closing _ .flagged task => size task.body + 5
  | closing _ .announced task => size task.body + 4
  | closing _ (.joining _) task => size task.body + 3
  | leaving _ => 1

/-- The steps that a stage can take without touching its weight. -/
def Stage.restless : Stage β → Nat
  | awake _ => 1
  | closing _ (.joining left) _ => left.length
  | _ => 0

namespace Pool

/-- What the queued tasks of a pool count for. -/
def queueWeight (size : β → Nat) (queue : Fifo (Task β)) : Nat :=
  total (fun task => size task.body + 3) queue.toList

/-- What the workers of a pool count for. -/
def workersWeight (size : β → Nat) (workers : List (Worker β)) : Nat :=
  total (fun worker => worker.stage.weight size) workers

/-- What the tasks of a pool have still to do. -/
def weight (size : β → Nat) (pool : Pool β ρ) : Nat :=
  queueWeight size pool.queue + workersWeight size pool.workers

/-- The steps that its workers can take without touching the weight. -/
def restless (pool : Pool β ρ) : Nat :=
  total (fun worker => worker.stage.restless) pool.workers

/-- A worker that changes its stage changes the weight by the difference of the two stages. -/
theorem workersWeight_set (size : β → Nat) {workers : List (Worker β)} {i : Nat}
    {worker : Worker β} (hget : workers[i]? = some worker) (stage : Stage β) (thread : Thread) :
    workersWeight size (workers.set i ⟨stage, thread⟩) + worker.stage.weight size =
      workersWeight size workers + stage.weight size :=
  total_set (fun worker : Worker β => worker.stage.weight size) hget

/-- A worker that changes its stage changes the number of restless workers by the difference. -/
theorem restless_set {workers : List (Worker β)} {i : Nat} {worker : Worker β}
    (hget : workers[i]? = some worker) (stage : Stage β) (thread : Thread) :
    total (fun worker : Worker β => worker.stage.restless) (workers.set i ⟨stage, thread⟩)
        + worker.stage.restless =
      total (fun worker => worker.stage.restless) workers + stage.restless :=
  total_set (fun worker : Worker β => worker.stage.restless) hget

theorem Stage.weight_woken (size : β → Nat) (worker : Worker β) :
    worker.woken.stage.weight size = worker.stage.weight size := by
  obtain ⟨stage, thread⟩ := worker
  cases stage <;> rfl

theorem workersWeight_wakeAll (size : β → Nat) (pool : Pool β ρ) :
    workersWeight size pool.wakeAll.workers = workersWeight size pool.workers := by
  simp [workersWeight, wakeAll, Stage.weight_woken]

theorem weight_wakeOne (size : β → Nat) (pool : Pool β ρ) (choice : Choice) :
    (pool.wakeOne choice).weight size = pool.weight size := by
  unfold wakeOne
  simp only
  split
  · next i hparked =>
    clear hparked
    simp only [weight, workersWeight, Nat.add_left_cancel_iff]
    generalize pool.workers = workers
    induction workers generalizing i with
    | nil => simp
    | cons worker workers ih =>
      cases i with
      | zero => simp [Stage.weight_woken]
      | succ i => simpa using ih i
  · rfl

/-- A pool that drops its queue has no more to do. -/
theorem weight_collapse_le (size : β → Nat) (pool : Pool β ρ) :
    pool.collapse.weight size ≤ pool.weight size := by
  unfold collapse
  split
  · simp [weight, queueWeight]
  · exact Nat.le_refl _

theorem restless_collapse (pool : Pool β ρ) : pool.collapse.restless = pool.restless := by
  unfold collapse restless
  split <;> rfl

theorem Stage.weight_le_of_size_le {size size' : β → Nat} (hle : ∀ body, size' body ≤ size body)
    (stage : Stage β) : stage.weight size' ≤ stage.weight size := by
  cases stage with
  | closing last closing task =>
    have := hle task.body
    cases closing <;> simp only [Stage.weight] <;> omega
  | running task | signalling task | announcing task =>
    have := hle task.body
    simp only [Stage.weight]
    omega
  | _ => exact Nat.le_refl _

theorem queueWeight_le_of_size_le {size size' : β → Nat} (hle : ∀ body, size' body ≤ size body)
    (queue : Fifo (Task β)) : queueWeight size' queue ≤ queueWeight size queue :=
  total_le_total (fun task => by have := hle task.body; omega) _

/-- Sizes that shrink lower the weight of a pool. -/
theorem weight_le_of_size_le {size size' : β → Nat} (hle : ∀ body, size' body ≤ size body)
    (pool : Pool β ρ) : pool.weight size' ≤ pool.weight size :=
  Nat.add_le_add (queueWeight_le_of_size_le hle _)
    (total_le_total (fun worker : Worker β => Stage.weight_le_of_size_le hle worker.stage) _)

/-- A stage that counts for less lowers the weight, also when the sizes shrink meanwhile. -/
theorem weight_setStage_lt {size size' : β → Nat} (hle : ∀ body, size' body ≤ size body)
    {pool : Pool β ρ} {i : Nat} {worker : Worker β} {stage : Stage β}
    (hget : pool.workers[i]? = some worker)
    (hstage : stage.weight size' < worker.stage.weight size) :
    (pool.setStage i worker stage).weight size' < pool.weight size := by
  have hqueue := queueWeight_le_of_size_le hle pool.queue
  have hworkers := total_set_le { worker with stage }
    (fun worker : Worker β => Stage.weight_le_of_size_le hle worker.stage) hget
  simp only [weight, workersWeight, setStage] at hworkers ⊢
  omega

/-- The steps that leave less to do: less weight, or as much weight and less unrest. -/
def Calmer (size : β → Nat) (after before : Pool β ρ) : Prop :=
  after.weight size < before.weight size ∨
    after.weight size ≤ before.weight size ∧ after.restless < before.restless

/-- A stage that counts for less leaves less to do. -/
theorem calmer_setStage {size : β → Nat} {pool : Pool β ρ} {i : Nat} {worker : Worker β}
    {stage : Stage β} (pool' : Pool β ρ) (hget : pool.workers[i]? = some worker)
    (hworkers : pool'.workers = pool.workers)
    (hqueue : queueWeight size pool'.queue + stage.weight size <
      queueWeight size pool.queue + worker.stage.weight size) :
    Calmer size (pool'.setStage i worker stage) pool := by
  left
  have := workersWeight_set size hget stage worker.thread
  simp only [weight, setStage, hworkers] at this ⊢
  omega

/-- A stage that counts for as much and has fewer steps before it leaves less to do. -/
theorem calmer_setStage_of_restless {size : β → Nat} {pool : Pool β ρ} {i : Nat}
    {worker : Worker β} {stage : Stage β} (hget : pool.workers[i]? = some worker)
    (hweight : stage.weight size ≤ worker.stage.weight size)
    (hrestless : stage.restless < worker.stage.restless) :
    Calmer size (pool.setStage i worker stage) pool := by
  right
  have hw := workersWeight_set size hget stage worker.thread
  have hr := restless_set hget stage worker.thread
  simp only [weight, restless, setStage] at hw hr ⊢
  omega

theorem Calmer.collapse {size : β → Nat} {pool pool' : Pool β ρ} (h : Calmer size pool' pool) :
    Calmer size pool'.collapse pool := by
  have hw := weight_collapse_le size pool'
  have hr := restless_collapse pool'
  unfold Calmer at h ⊢
  omega

theorem Calmer.release {size : β → Nat} {pool pool' : Pool β ρ} (h : Calmer size pool' pool) :
    Calmer size pool'.release pool :=
  have released : Calmer size { pool' with released := true } pool := h
  released.collapse

theorem Calmer.trans_size {size size' : β → Nat} {pool pool' : Pool β ρ}
    (h : Calmer size pool' pool) (hle : ∀ body, size' body ≤ size body) :
    pool'.weight size' < pool.weight size ∨
      pool'.weight size' ≤ pool.weight size ∧ pool'.restless < pool.restless := by
  have := weight_le_of_size_le hle pool'
  unfold Calmer at h
  omega

/-- Whatever a worker finds at the queue, it has less before it than a worker about to look. -/
theorem calmer_look {size : β → Nat} {pool : Pool β ρ} {i : Nat} {worker : Worker β}
    {draining : Bool} (hget : pool.workers[i]? = some worker)
    (hstage : worker.stage = .awake draining) :
    Calmer size (pool.look i worker draining) pool := by
  unfold look
  split
  · next task queue hpop =>
    refine calmer_setStage { pool with queue } hget rfl ?_
    have hlist : pool.queue.toList = task :: queue.toList := by
      split at hpop
      · exact Fifo.toList_of_pop? hpop
      · cases hpop
    simp only [queueWeight, hlist, hstage, total_cons, Stage.weight]
    omega
  · split
    · refine Calmer.collapse (calmer_setStage_of_restless hget ?_ ?_) <;>
        simp [hstage, Stage.weight, Stage.restless]
    · refine calmer_setStage_of_restless hget ?_ ?_ <;>
        simp [hstage, Stage.weight, Stage.restless]

/-- A worker that ends its task has less to do. -/
theorem calmer_conclude {size : β → Nat} {pool : Pool β ρ} {i : Nat} {worker : Worker β}
    {task : Task β} (hget : pool.workers[i]? = some worker)
    (hstage : worker.stage = .running task) (outcome : Outcome ρ) :
    Calmer size (pool.conclude i worker task.audience outcome) pool := by
  unfold conclude
  split
  · exact calmer_setStage _ hget rfl (by simp [hstage, Stage.weight])
  · exact .collapse (calmer_setStage _ hget rfl (by simp [hstage, Stage.weight]))
  · exact calmer_setStage _ hget rfl (by simp [hstage, Stage.weight])
  · exact calmer_setStage _ hget rfl (by simp [hstage, Stage.weight])
  · exact calmer_setStage _ hget rfl (by simp [hstage, Stage.weight])

/-- A pool that takes a task puts it at the end of its queue. -/
theorem offer?_eq_some {pool pool' : Pool β ρ} {task : Task β}
    (hoffer : pool.offer? task = some pool') :
    pool'.queue = pool.queue.push task ∧ pool'.workers = pool.workers := by
  unfold offer? at hoffer
  split at hoffer
  · cases hoffer
  · cases hoffer; exact ⟨rfl, rfl⟩

theorem calmer_adoptFrom {size : β → Nat} {pool : Pool β ρ} {i : Nat} {worker : Worker β}
    {task : Task β} {rest : Bool → β} (hget : pool.workers[i]? = some worker)
    (hstage : worker.stage = .running task)
    (hsize : ∀ owned, size (rest owned) < size task.body) :
    Calmer size (pool.adoptFrom i worker task rest) pool := by
  unfold adoptFrom
  split
  · have := hsize false
    exact calmer_setStage _ hget rfl (by simp only [hstage, Stage.weight]; omega)
  · have := hsize true
    exact calmer_setStage { pool with owners := pool.owners + 1 } hget rfl
      (by simp only [hstage, Stage.weight]; omega)

theorem calmer_giveUpFrom {size : β → Nat} {pool : Pool β ρ} {i : Nat} {worker : Worker β}
    {task rest : Task β} (hget : pool.workers[i]? = some worker)
    (hstage : worker.stage = .running task) (hsize : size rest.body + 5 ≤ size task.body) :
    Calmer size (pool.giveUpFrom i worker rest) pool := by
  unfold giveUpFrom
  simp only
  split <;>
    exact calmer_setStage { pool with owners := pool.owners - 1 } hget rfl
      (by simp only [hstage, Stage.weight]; omega)

/-- A task that queues another one pays for it with its own size. -/
theorem calmer_enqueueFrom {size : β → Nat} {pool : Pool β ρ} {i : Nat} {worker : Worker β}
    {task queued accepted refused : Task β} (hget : pool.workers[i]? = some worker)
    (hstage : worker.stage = .running task)
    (haccepted : size queued.body + size accepted.body + 5 ≤ size task.body)
    (hrefused : size refused.body < size task.body) :
    Calmer size (pool.enqueueFrom i worker queued accepted refused) pool := by
  unfold enqueueFrom
  split
  · next hoffer =>
    obtain ⟨hqueue, hworkers⟩ := offer?_eq_some hoffer
    split <;>
      exact calmer_setStage _ hget hworkers (by
        simp only [hqueue, queueWeight, Fifo.toList_push, total_append, total_cons, total_nil,
          hstage, Stage.weight]
        omega)
  · exact calmer_setStage { pool with board := pool.board.refuse queued.audience } hget rfl
      (by simp only [hstage, Stage.weight]; omega)

/-- A task that asks for something pays for the request with its own size. -/
theorem calmer_askFrom {size : β → Nat} {pool : Pool β ρ} {i : Nat} {worker : Worker β}
    {task : Task β} {request : Request β} {rest : Reply → β}
    (hget : pool.workers[i]? = some worker) (hstage : worker.stage = .running task)
    (hsize : ∀ reply, request.weight size + size (rest reply) + 5 ≤ size task.body) :
    Calmer size (pool.askFrom i worker task rest request) pool := by
  have hdone := hsize .done
  have hrefused := hsize .refused
  cases request with
  | execute body owners | spawnMember group body owners =>
    simp only [Request.weight] at hdone hrefused
    exact calmer_enqueueFrom hget hstage hdone (by simp only; omega)
  | submit body owners =>
    have hhandle := hsize (.handle pool.board.nextHandle)
    simp only [Request.weight] at hhandle
    let opened : Pool β ρ := { pool with board := pool.board.openHandle.2 }
    have hopened : opened.workers[i]? = some worker := hget
    exact calmer_enqueueFrom hopened hstage hhandle (by simp only; omega)
  | signalWork =>
    simp only [Request.weight] at hdone
    exact calmer_setStage pool.enableWork hget rfl
      (by simp only [enableWork, hstage, Stage.weight]; omega)
  | signalWait =>
    simp only [Request.weight] at hdone
    exact calmer_setStage pool.disableWork hget rfl
      (by simp only [disableWork, hstage, Stage.weight]; omega)
  | finalize =>
    simp only [Request.weight] at hdone
    exact calmer_setStage pool hget rfl (by simp only [hstage, Stage.weight]; omega)

theorem calmer_wakeAll {size : β → Nat} {pool : Pool β ρ} {i : Nat} {worker : Worker β}
    {stage : Stage β} (hget : pool.workers[i]? = some worker)
    (hstage : stage.weight size < worker.stage.weight size) :
    Calmer size (pool.wakeAll.setStage i worker stage) pool := by
  left
  have hwoken : pool.wakeAll.workers[i]? = some worker.woken := by simp [wakeAll, hget]
  have hset := workersWeight_set size hwoken stage worker.thread
  rw [workersWeight_wakeAll, Stage.weight_woken] at hset
  simp only [weight, setStage, wakeAll] at hset ⊢
  omega

theorem calmer_resumeFrom {size : β → Nat} {pool pool' : Pool β ρ} {i : Nat} {worker : Worker β}
    {last : Bool} {task : Task β} (thread : Thread) (hget : pool.workers[i]? = some worker)
    (hworkers : pool'.workers = pool.workers) (hqueue : pool'.queue = pool.queue)
    (hstage : size task.body + 2 < worker.stage.weight size) :
    Calmer size (pool'.resumeFrom i { worker with thread } last task) pool := by
  have hcalmer : Calmer size (pool'.setStage i { worker with thread } (.running task)) pool := by
    left
    have hset := workersWeight_set size hget (.running task) thread
    have hrunning : (Stage.running task).weight size = size task.body + 2 := rfl
    simp only [weight, setStage, hworkers, hqueue]
    omega
  unfold resumeFrom
  split
  · exact hcalmer.release
  · exact hcalmer

/-- Every step of a task that closes its pool leaves less to do. -/
theorem calmer_closeFrom {size : β → Nat} {pool pool' : Pool β ρ} {i : Nat} {worker : Worker β}
    {last : Bool} {task : Task β} {closing : Closing} (hget : pool.workers[i]? = some worker)
    (hstage : worker.stage = .closing last closing task)
    (hclose : pool.closeFrom i worker last task closing = some pool') :
    Calmer size pool' pool := by
  unfold closeFrom at hclose
  split at hclose
  · cases hclose
    exact calmer_setStage pool.beginShutdown hget rfl
      (by simp [beginShutdown, hstage, Stage.weight])
  · cases hclose
    exact calmer_wakeAll hget (by simp [hstage, Stage.weight])
  · split at hclose
    · next htake =>
      cases hclose
      obtain ⟨-, rfl⟩ := Prod.mk.inj htake
      exact calmer_resumeFrom worker.thread hget rfl rfl (by simp [hstage, Stage.weight])
    · next htake =>
      cases hclose
      obtain ⟨-, rfl⟩ := Prod.mk.inj htake
      exact calmer_setStage { pool with unjoined := [] } hget rfl
        (by simp [hstage, Stage.weight])
  · cases hclose
    exact calmer_resumeFrom _ hget rfl rfl (by simp [hstage, Stage.weight])
  · split at hclose
    · cases hclose
      refine calmer_setStage_of_restless hget ?_ ?_ <;>
        simp [hstage, Stage.weight, Stage.restless]
    · cases hclose

end Pool

namespace Worksite

variable {B : Body β ε ρ} [B.Sized] {s s' : Worksite β ε ρ}

/-- What the tasks of a pool have still to do in their environment. -/
def weight (B : Body β ε ρ) [B.Sized] (s : Worksite β ε ρ) : Nat :=
  s.pool.weight (Body.Sized.size B s.env)

/-- Every step of a worker leaves less to do. -/
theorem workerStep_lt {choice : Choice} {i : Nat}
    (hstep : s.workerStep B choice i = some s') :
    s'.weight B < s.weight B ∨
      s'.weight B ≤ s.weight B ∧ s'.pool.restless < s.pool.restless := by
  unfold workerStep at hstep
  split at hstep
  · cases hstep
  · next worker hget =>
    split at hstep
    · next draining hstage => cases hstep; exact Pool.calmer_look hget hstage
    · next task hstage =>
      split at hstep
      · next env rest hbody =>
        cases hstep
        have hsize := Body.Sized.size_next hbody
        exact .inl (Pool.weight_setStage_lt (Body.Sized.size_next_le hbody) hget
          (by simp only [hstage, Stage.weight]; omega))
      · cases hstep
      · next rest hbody =>
        cases hstep
        exact Pool.calmer_adoptFrom hget hstage (Body.Sized.size_adopt hbody)
      · next rest hbody =>
        cases hstep
        exact Pool.calmer_giveUpFrom hget hstage (Body.Sized.size_giveUp hbody)
      · next request rest hbody =>
        cases hstep
        exact Pool.calmer_askFrom hget hstage (Body.Sized.size_ask hbody)
      · next env outcome hbody =>
        cases hstep
        exact (Pool.calmer_conclude hget hstage outcome).trans_size
          (Body.Sized.size_finish_le hbody)
    · next task hstage =>
      cases hstep
      refine .inl ?_
      simp only [weight, Pool.weight_wakeOne]
      exact Pool.weight_setStage_lt (fun _ => Nat.le_refl _) hget (by simp [hstage, Stage.weight])
    · next task hstage =>
      cases hstep
      exact Pool.calmer_wakeAll hget (by simp [hstage, Stage.weight])
    · next last closing task hstage =>
      obtain ⟨pool, hclose, rfl⟩ := Option.map_eq_some_iff.1 hstep
      exact Pool.calmer_closeFrom hget hstage hclose
    · next group hstage =>
      cases hstep
      exact Pool.calmer_setStage { s.pool with board := s.pool.board.leaveGroup group } hget rfl
        (by simp [hstage, Stage.weight])
    · cases hstep
    · cases hstep
    · cases hstep

/-- The step of the first worker that can take one, in the ordinary course. -/
def firstStep? (B : Body β ε ρ) (s : Worksite β ε ρ) : Option (Worksite β ε ρ) :=
  (List.range s.pool.workers.length).findSome? (s.workerStep B 0 ·)

/-- The step of the first worker that can take one leaves less to do. -/
theorem firstStep?_lt (hstep : s.firstStep? B = some s') :
    s'.weight B < s.weight B ∨
      s'.weight B ≤ s.weight B ∧ s'.pool.restless < s.pool.restless := by
  obtain ⟨i, -, hi⟩ := List.exists_of_findSome?_eq_some hstep
  exact workerStep_lt hi

/-- Lets the workers go on until none of them can. -/
def settle (B : Body β ε ρ) [B.Sized] (s : Worksite β ε ρ) : Worksite β ε ρ :=
  match _h : s.firstStep? B with
  | some s' => s'.settle B
  | none => s
termination_by (s.weight B, s.pool.restless)
decreasing_by
  rcases firstStep?_lt _h with hw | ⟨hw, hr⟩
  · exact .left _ _ hw
  · rcases Nat.lt_or_eq_of_le hw with hw | hw
    · exact .left _ _ hw
    · rw [hw]; exact .right _ hr

end Worksite

end MarkSweep
