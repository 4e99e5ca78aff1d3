import MarkSweep.Proofs.Company.Discipline
import MarkSweep.Proofs.Cycle.Phases

namespace MarkSweep

/-- No worker is in the middle of anything that concerns the pool as a whole. -/
def Pool.Plain {β ρ : Type} (pool : Pool β ρ) : Prop :=
  ∀ worker ∈ pool.workers, worker.stage.isPlain = true

namespace Pool

variable {β ρ : Type} {pool pool' : Pool β ρ}

/-- Whoever works in a pool after a wake-up worked there before. -/
theorem Stirred.exists_worker (hstirred : pool.Stirred pool') {worker' : Worker β}
    (hmem : worker' ∈ pool'.workers) :
    ∃ worker ∈ pool.workers, worker' = worker ∨ worker' = worker.woken := by
  have hworkers := hstirred.workers
  generalize pool.workers = before at hworkers
  generalize pool'.workers = after at hworkers hmem
  induction hworkers with
  | nil => cases hmem
  | cons hworker _ ih =>
    obtain rfl | hmem := List.mem_cons.1 hmem
    · exact ⟨_, List.mem_cons_self, hworker⟩
    · obtain ⟨worker, hbefore, heq⟩ := ih hmem
      exact ⟨worker, List.mem_cons_of_mem _ hbefore, heq⟩

theorem Stirred.plain (hstirred : pool.Stirred pool') (hplain : pool.Plain) : pool'.Plain := by
  intro worker' hmem
  obtain ⟨worker, hbefore, rfl | rfl⟩ := hstirred.exists_worker hmem
  · exact hplain _ hbefore
  · have hworker := hplain worker hbefore
    obtain ⟨stage, thread⟩ := worker
    cases stage with
    | parked => rfl
    | _ => exact hworker

/-- A pool stays plain when a worker comes to a stage that concerns nobody else. -/
theorem plain_setStage (pool : Pool β ρ) (i : Nat) (worker : Worker β) {stage : Stage β}
    (hplain : pool.Plain) (hstage : stage.isPlain = true) :
    (pool.setStage i worker stage).Plain := by
  intro other hmem
  obtain hmem | rfl := List.mem_or_eq_of_mem_set hmem
  · exact hplain other hmem
  · exact hstage

theorem plain_collapse (hplain : pool.Plain) : pool.collapse.Plain := by
  unfold collapse
  split
  · exact hplain
  · exact hplain

end Pool

namespace Worksite

variable {β ε ρ : Type} {B : Body β ε ρ} {s s' : Worksite β ε ρ} {choice : Choice} {i : Nat}

/-- Workers whose tasks compute and end do nothing that concerns the pool as a whole. -/
theorem workerStep_plain (hB : B.IsPlain) (hplain : s.pool.Plain)
    (hstep : s.workerStep B choice i = some s') :
    s'.pool.Plain ∧ s'.pool.shutDown = s.pool.shutDown := by
  have hcollapse : ∀ pool : Pool β ρ, pool.collapse.shutDown = pool.shutDown := by
    intro pool
    unfold Pool.collapse
    split <;> rfl
  unfold workerStep at hstep
  split at hstep
  · cases hstep
  · next worker hget =>
    have hworker := hplain worker (List.mem_of_getElem? hget)
    split at hstep
    · next draining hstage =>
      cases hstep
      unfold Pool.look
      split
      · exact ⟨Pool.plain_setStage { s.pool with queue := _ } i worker hplain rfl, rfl⟩
      · split
        · exact ⟨Pool.plain_collapse (Pool.plain_setStage s.pool i worker hplain rfl),
            hcollapse _⟩
        · exact ⟨Pool.plain_setStage s.pool i worker hplain rfl, rfl⟩
    · next task hstage =>
      obtain ⟨env, rest, hbody⟩ | ⟨env, outcome, hbody⟩ :=
        hB (s.pool.workerName i) worker.thread s.env task.body
      · rw [hbody] at hstep
        cases hstep
        exact ⟨Pool.plain_setStage s.pool i worker hplain rfl, rfl⟩
      · rw [hbody] at hstep
        cases hstep
        refine ⟨?_, ?_⟩ <;> unfold Pool.conclude <;> split
        · exact Pool.plain_setStage s.pool i worker hplain rfl
        · exact Pool.plain_collapse (Pool.plain_setStage s.pool i worker hplain rfl)
        · exact Pool.plain_setStage { s.pool with board := _ } i worker hplain rfl
        · exact Pool.plain_setStage s.pool i worker hplain rfl
        · exact Pool.plain_setStage { s.pool with board := _ } i worker hplain rfl
        · rfl
        · exact hcollapse _
        · rfl
        · rfl
        · rfl
    · next task hstage =>
      rw [hstage] at hworker
      cases hworker
    · next task hstage =>
      rw [hstage] at hworker
      cases hworker
    · next last closing task hstage =>
      rw [hstage] at hworker
      cases hworker
    · cases hstep
      exact ⟨Pool.plain_setStage { s.pool with board := _ } i worker hplain rfl, rfl⟩
    · cases hstep
    · cases hstep
    · cases hstep

end Worksite

/-- The jobs of a collection leave alone what the cycle lock protects. -/
theorem Job.step_cycle {thread : Thread} {world world' : World} {job : Job}
    (hstep : (∃ rest, job.step thread world = .next world' rest) ∨
      ∃ outcome, job.step thread world = .finish world' outcome) :
    world'.cycle = world.cycle := by
  obtain rfl | ⟨sheet, marks, rfl⟩ | ⟨live, region, rfl⟩ := step_changes hstep
  · rfl
  · cases sheet <;> rfl
  · rfl

namespace Machine

open Call

variable {α : Type}

/-- Changes that leave alone what the cycle lock protects and whether the pool is shut down. -/
structure Neutral (machine machine' : Machine) : Prop where
  cycle : machine'.env.cycle = machine.env.cycle
  shutDown : machine'.pool.shutDown = machine.pool.shutDown
  plain : machine.pool.Plain → machine'.pool.Plain

theorem Neutral.refl (machine : Machine) : Neutral machine machine :=
  ⟨rfl, rfl, fun hplain => hplain⟩

theorem Neutral.of_workers {machine : Machine} {pool : Pool Job Tally}
    (hshut : pool.shutDown = machine.pool.shutDown)
    (hworkers : pool.workers = machine.pool.workers) : Neutral machine { machine with pool } := by
  refine ⟨rfl, hshut, fun hplain worker hmem => hplain worker ?_⟩
  rw [← hworkers]
  exact hmem

theorem Neutral.of_stirred {machine : Machine} {pool : Pool Job Tally}
    (hshut : pool.shutDown = machine.pool.shutDown) (hstirred : machine.pool.Stirred pool) :
    Neutral machine { machine with pool } :=
  ⟨rfl, hshut, hstirred.plain⟩

/-- The steps of the workers are neutral. -/
theorem neutral_workerStep {machine machine' : Machine} {choice : Choice} {i : Nat}
    (hplain : machine.pool.Plain)
    (hstep : Worksite.workerStep Job.body choice i machine = some machine') :
    Neutral machine machine' := by
  obtain ⟨hplain', hshut⟩ := Worksite.workerStep_plain Job.body_isPlain hplain hstep
  refine ⟨?_, hshut, fun _ => hplain'⟩
  obtain heq | ⟨_, _, _, hbody⟩ := Worksite.workerStep_env hstep
  · rw [heq]
  · exact Job.step_cycle hbody

/-- Somebody holds the cycle lock. -/
def Busy (x : Thread × Machine) : Prop := x.2.env.cycle.busy = true

/-- The call is neutral, and none of its steps waits for the cycle lock. -/
abbrev IsNeutral (call : Call Machine α) : Prop :=
  Call.Respects (fun x y => Neutral x.2 y.2) Busy call

/-- A change of the marks. -/
def withMarks (machine : Machine) (marks : Marks) : Machine :=
  { machine with env := { machine.env with marks } }

/-- What a step of the work of a collection does. Only such tasks are queued and only such records
reported as `tasks` and `records` say, and the marks change only if `marks` says so. -/
inductive Chore (marks : Prop) (tasks : Task Job → Prop) (records : Record → Prop) :
    Thread × Machine → Thread × Machine → Prop
  /-- The thread enters or leaves a lock level, or only looks. -/
  | hold {t : Thread} {machine : Machine} (held : Held) :
      Chore marks tasks records (t, machine) ({ t with held }, machine)
  | report {t : Thread} {machine : Machine} {record : Record} (hrecord : records record) :
      Chore marks tasks records (t, machine) (t.report record, machine)
  /-- Marks are cleared or moved out. -/
  | mark {t : Thread} {machine : Machine} (hmarks : marks) (left : Marks) :
      Chore marks tasks records (t, machine) (t, machine.withMarks left)
  /-- Workers are woken, or the work flag changes. -/
  | stir {t : Thread} {machine : Machine} {pool : Pool Job Tally}
      (hstirred : machine.pool.Stirred pool) (hshut : pool.shutDown = machine.pool.shutDown) :
      Chore marks tasks records (t, machine) (t, { machine with pool })
  /-- A handle or a group is opened, told of or given up. -/
  | note {t : Thread} {machine : Machine} (board : Board Tally) :
      Chore marks tasks records (t, machine)
        (t, { machine with pool := { machine.pool with board } })
  | queue {t : Thread} {machine : Machine} {task : Task Job} (htask : tasks task) :
      Chore marks tasks records (t, machine) (t, { machine with pool := machine.pool.accept task })

/-- An event is reported, and no span is opened or left. -/
def IsEvent (record : Record) : Prop :=
  ∃ event, record = .event event

/-- The call is made of chores, and none of its steps waits for the cycle lock. -/
abbrev Chores (marks : Prop) (tasks : Task Job → Prop) (records : Record → Prop)
    (call : Call Machine α) : Prop :=
  Call.Respects (Chore marks tasks records) Busy call

/-- The cycle lock is held and the pool has no workers; it has a handle that has heard, and a group
that is empty. -/
private def held (handle : HandleId) (group : GroupId) : Thread × Machine :=
  ({},
    { pool :=
        { name := ""
          workers := []
          unjoined := []
          board :=
            { handles := (∅ : Std.ExtTreeMap HandleId (Delivery Tally)).insert handle .lost
              groups := (∅ : Std.ExtTreeMap GroupId Group).insert group {} } }
      env := { cycle := { busy := true }, config := .withWorkers 1 } })

theorem exists_busy : ∃ x, Busy x := ⟨held 0 0, rfl⟩

/-- The lock may be held where every worker is over. -/
theorem exists_busy_isOver (i : Nat) : ∃ x, Busy x ∧ x.2.pool.isOver i = true :=
  ⟨held 0 0, rfl, rfl⟩

variable {marks : Prop} {tasks tasks' : Task Job → Prop} {records records' : Record → Prop}
  {x y : Thread × Machine}

theorem Chore.look (x : Thread × Machine) : Chore marks tasks records x x := .hold x.1.held

theorem Chore.mono (hchore : Chore marks tasks records x y)
    (htasks : ∀ task, tasks task → tasks' task)
    (hrecords : ∀ record, records record → records' record) : Chore marks tasks' records' x y := by
  cases hchore with
  | hold held => exact .hold held
  | report hrecord => exact .report (hrecords _ hrecord)
  | mark hmarks left => exact .mark hmarks left
  | stir hstirred hshut => exact .stir hstirred hshut
  | note board => exact .note board
  | queue htask => exact .queue (htasks _ htask)

theorem Chores.mono {call : Call Machine α} (hcall : Chores marks tasks records call)
    (htasks : ∀ task, tasks task → tasks' task)
    (hrecords : ∀ record, records record → records' record) : Chores marks tasks' records' call :=
  Routine.Respects.mono hcall fun _ _ hchore => hchore.mono htasks hrecords

/-- Chores are neutral. -/
theorem Chore.neutral (hchore : Chore marks tasks records x y) : Neutral x.2 y.2 := by
  cases hchore with
  | hold _ | report _ => exact .refl _
  | mark _ _ => exact ⟨rfl, rfl, fun hplain => hplain⟩
  | stir hstirred hshut => exact .of_stirred hshut hstirred
  | note _ => exact .of_workers rfl rfl
  | queue _ => exact .of_workers rfl rfl

private theorem chores_emit {event : Event} (hrecord : records (.event event)) :
    Chores marks tasks records (emit event) :=
  respects_onThread exists_busy fun _ _ => .report hrecord

private theorem chores_guarded {level : Level} {f : Machine → α × Machine}
    (hf : ∀ t machine, Chore marks tasks records (t, machine) (t, (f machine).2)) :
    Chores marks tasks records (guarded level (atomic f)) :=
  respects_guarded exists_busy (fun _ held _ => .hold held) (respects_atomic exists_busy hf)

private theorem chores_onMarks (f : Marks → α × Marks) :
    Chores True tasks records (onMarks .collector (guarded .marks (atomic f))) := by
  rw [onMarks_guarded]
  exact chores_guarded fun _ _ => .mark trivial _

private theorem chores_readStats : Chores marks tasks records (onHeap Heap.readStats) := by
  rw [onHeap_readStats]
  exact chores_guarded fun _ _ => .look _

theorem chores_clear : Chores True tasks records (onMarks .collector Marks.clear) := by
  rw [onMarks_clear]
  exact respects_bind (chores_onMarks _) fun _ => chores_onMarks _

private theorem chores_freeze : Chores True tasks records (onMarks .collector Marks.freeze) := by
  rw [onMarks_freeze]
  exact respects_bind (chores_onMarks _) fun _ =>
    respects_bind (chores_onMarks _) fun _ => respects_pure _

private theorem chores_exchange {f : Pool Job Tally → α × Pool Job Tally}
    (hf : ∀ t machine, Chore marks tasks records (t, machine)
      (t, { machine with pool := (f machine.pool).2 })) :
    Chores marks tasks records (Pool.exchange f) :=
  respects_atomic exists_busy hf

private theorem chores_board {f : Board Tally → α × Board Tally} :
    Chores marks tasks records (Pool.exchange fun pool =>
      ((f pool.board).1, { pool with board := (f pool.board).2 })) :=
  chores_exchange fun _ _ => .note _

private theorem chores_notifyOne :
    Chores marks tasks records (Pool.notifyOne : Call Machine Unit) := by
  refine respects_choose exists_busy fun choice _ machine =>
    .stir (Pool.stirred_wakeOne machine.pool choice) ?_
  simp only [Pool.wakeOne]
  split <;> rfl

theorem chores_signalWork : Chores marks tasks records (Pool.signalWork : Call Machine Unit) := by
  refine respects_bind (chores_exchange (f := fun pool => ((), pool.enableWork)) fun _ _ => ?_)
    fun _ => chores_exchange (f := fun pool => ((), pool.wakeAll)) fun _ machine => ?_
  · exact .stir (Pool.stirred_of_workers rfl rfl rfl rfl) rfl
  · exact .stir (Pool.stirred_wakeAll machine.pool) rfl

private theorem chores_signalWait :
    Chores marks tasks records (Pool.signalWait : Call Machine Unit) :=
  chores_exchange (f := fun pool => ((), pool.disableWork)) fun _ _ =>
    .stir (Pool.stirred_of_workers rfl rfl rfl rfl) rfl

private theorem chores_enqueue {task : Task Job} (htask : tasks task) :
    Chores marks tasks records (Pool.enqueue task : Call Machine Bool) := by
  refine respects_bind (chores_exchange fun t machine => ?_) ?_
  · obtain ⟨-, hoffer⟩ | ⟨-, hoffer⟩ := machine.pool.offer?_cases task
    · simp only [hoffer]
      exact .look _
    · simp only [hoffer]
      exact .queue htask
  · rintro (_ | _ | _)
    · exact respects_pure false
    · exact respects_pure true
    · exact respects_bind chores_notifyOne fun _ => respects_pure true

private theorem chores_submit {job : Job} {owners : Nat}
    (htasks : ∀ id, tasks ⟨.handle id, job, owners⟩) :
    Chores marks tasks records (Pool.submit job owners : Call Machine HandleId) := by
  refine respects_bind (chores_board (f := Board.openHandle)) fun id => ?_
  refine respects_bind (chores_enqueue (htasks id)) fun accepted => ?_
  cases accepted with
  | true => exact respects_pure id
  | false =>
    exact respects_bind (chores_board (f := fun board => ((), board.tell id .lost)))
      fun _ => respects_pure id

private theorem chores_spawnMember {group : GroupId} {job : Job} {owners : Nat}
    (htask : tasks ⟨.group group, job, owners⟩) : Chores marks tasks records
      (Pool.spawnMember group job owners : Call Machine (Except Failure Unit)) := by
  refine respects_bind (chores_enqueue htask) fun accepted => ?_
  cases accepted <;> exact respects_pure _

private theorem chores_tryJoin (id : HandleId) :
    Chores marks tasks records (Pool.tryJoin id : Call Machine (Except Failure Tally)) := by
  refine respects_bind (respects_await (x := held id 0) rfl ?offer ?keep) ?after
  case keep =>
    intro _ machine outcome machine' hstep
    simp only at hstep
    split at hstep
    · cases hstep
      exact .note _
    · cases hstep
      exact .note _
    · cases hstep
    · cases hstep
  case offer =>
    simp only [held, Std.ExtTreeMap.getElem?_insert_self]
    exact ⟨_, rfl⟩
  case after =>
    rintro (_ | ⟨result⟩ | ⟨payload⟩) <;> exact respects_pure _

private theorem chores_waitGroup (id : GroupId) :
    Chores marks tasks records (Pool.waitGroup id : Call Machine (Except Failure Unit)) := by
  refine respects_await (x := held 0 id) rfl ?offer ?keep
  case keep =>
    intro _ machine answer machine' hstep
    simp only at hstep
    split at hstep
    · split at hstep
      · cases hstep
        exact .note _
      · cases hstep
    · cases hstep
  case offer =>
    simp only [held, Std.ExtTreeMap.getElem?_insert_self, if_true]
    exact ⟨_, rfl⟩

private theorem chores_orFault (answer : Except Failure α) :
    Chores marks tasks records (Call.orFault answer : Call Machine α) := by
  cases answer <;> trivial

private theorem chores_inSpan {span : Span} {body : Call Machine α}
    (hopened : records (.opened span)) (hleft : records (.left span))
    (hbody : Chores marks tasks records body) : Chores marks tasks records (inSpan span body) :=
  respects_inSpan exists_busy (fun _ _ => .report hopened) (fun _ _ => .report hleft) hbody

/-- A task that marks. -/
def Labels (task : Task Job) : Prop := task.audience ≠ .nobody ∧ task.body.isSweep = false

private theorem chores_spawnFrames (group : GroupId) (frames : List FrameId) :
    Chores marks Labels records (spawnFrames .collector group frames) := by
  have hspawn : ∀ frame row, Chores marks Labels records
      (Pool.spawnMember group (Job.markRow .collector frame row) 0) :=
    fun _ _ => chores_spawnMember ⟨nofun, rfl⟩
  induction frames with
  | nil => exact respects_pure _
  | cons frame frames ih =>
    refine respects_bind (hspawn frame .operands) fun answer => ?_
    cases answer with
    | error failure => exact respects_pure _
    | ok _ =>
      refine respects_bind (hspawn frame .locals) fun answer => ?_
      cases answer with
      | error failure => exact respects_pure _
      | ok _ => exact ih

private theorem chores_scan (callStacks : List CallStack) :
    Chores marks Labels records (scan .collector callStacks) := by
  refine respects_bind (chores_board (f := Board.openGroup)) fun group => ?_
  refine respects_bind (chores_spawnFrames _ _) fun answer => ?_
  cases answer with
  | error failure =>
    exact respects_bind (chores_board (f := fun board => ((), board.dropGroup group)))
      fun _ => respects_pure _
  | ok _ =>
    refine respects_bind (chores_submit fun _ => ⟨nofun, rfl⟩) fun statics => ?_
    refine respects_bind (chores_tryJoin statics) fun _ => ?_
    exact respects_bind (chores_waitGroup group) fun _ => respects_pure _

/-- A mark phase queues nothing but tasks that mark, and leaves the marks to them until it takes
stock. -/
theorem chores_comb (callStacks : List CallStack) :
    Chores marks Labels IsEvent (comb callStacks) := by
  refine respects_bind chores_readStats fun _ => ?_
  exact respects_bind (chores_emit ⟨_, rfl⟩) fun _ => chores_scan callStacks

/-- To take stock is to look at the marks and to move them out. -/
theorem chores_takeStock (found : RootScan) : Chores True tasks IsEvent (takeStock found) := by
  refine respects_bind (chores_onMarks _) fun _ => ?_
  refine respects_bind (chores_onMarks _) fun _ => ?_
  refine respects_bind chores_freeze fun _ => ?_
  exact respects_bind (chores_emit ⟨_, rfl⟩) fun _ => respects_pure _

/-- A task that sweeps a container by what is live. -/
def Sweeps (live : LiveSet) (task : Task Job) : Prop :=
  task.audience ≠ .nobody ∧ ∃ region, task.body = .sweep region live

/-- A sweep queues nothing but sweeps. -/
theorem chores_sweep (live : LiveSet) : Chores marks (Sweeps live) records (sweep live) := by
  have hsubmit : ∀ region, Chores marks (Sweeps live) records
      (Pool.submit (.sweep region live) 0 : Call Machine HandleId) :=
    fun region => chores_submit fun _ => ⟨nofun, region, rfl⟩
  refine respects_bind (hsubmit .objects) fun objects => ?_
  refine respects_bind (hsubmit .arrays) fun arrays => ?_
  refine respects_bind (hsubmit .monitors) fun monitors => ?_
  refine respects_bind (chores_tryJoin objects) fun _ => ?_
  refine respects_bind (chores_tryJoin arrays) fun _ => ?_
  exact respects_bind (chores_tryJoin monitors) fun _ => respects_pure _

/-- Neither does a sweep phase. -/
theorem chores_sweepPhase (found : MarkResult) :
    Chores marks (Sweeps found.live) (fun _ => True) (sweepPhase found) := by
  refine chores_inSpan trivial trivial (respects_bind (chores_emit trivial) fun _ => ?_)
  refine respects_bind (chores_sweep found.live) fun answer => ?_
  refine respects_bind (chores_orFault answer) fun _ => ?_
  exact respects_bind (chores_emit trivial) fun _ => respects_pure _

theorem chores_rest : Chores True tasks records rest :=
  respects_bind chores_clear fun _ => chores_signalWait

/-- A whole collection is neutral. -/
theorem isNeutral_runCycle (callStacks : List CallStack) (policy : Policy) :
    IsNeutral (runCycle callStacks policy) := by
  have hmark : Chores True (fun _ => True) (fun _ => True) (markPhase callStacks) := by
    rw [markPhase_eq]
    refine chores_inSpan trivial trivial (respects_bind ?_ fun answer => ?_)
    · exact (chores_comb callStacks).mono (fun _ _ => trivial) fun _ _ => trivial
    · refine respects_bind (chores_orFault answer) fun found => ?_
      exact (chores_takeStock found).mono (fun _ htask => htask) fun _ _ => trivial
  have hsweep : ∀ found, Chores True (fun _ => True) (fun _ => True) (sweepPhase found) :=
    fun found => (chores_sweepPhase found).mono (fun _ _ => trivial) fun _ hrecord => hrecord
  have hphases : Chores True (fun _ => True) (fun _ => True) (runPhases callStacks) := by
    refine respects_bind chores_clear fun _ => ?_
    refine respects_bind chores_signalWork fun _ => ?_
    refine respects_bind hmark fun found => ?_
    exact respects_bind (hsweep found) fun _ => respects_pure _
  have hcycle : Chores True (fun _ => True) (fun _ => True) (runCycle callStacks policy) :=
    chores_inSpan trivial trivial (respects_andFinally hphases chores_rest)
  exact Routine.Respects.mono hcycle fun _ _ hchore => hchore.neutral

end Machine

end MarkSweep
