import Mathlib.Logic.Function.Basic
import MarkSweep.Proofs.Pool.Deeds

namespace MarkSweep

variable {β ε ρ : Type}

namespace Stage

/-- To whom the task answers that a worker has begun and not ended. -/
def audience? (stage : Stage β) : Option Audience := stage.underway?.map (·.audience)

/-- Whether a worker has still to wake others. -/
def isWaking : Stage β → Bool
  | signalling _ | announcing _ | closing _ .flagged _ => true
  | _ => false

/-- What a worker is doing after a wake-up. -/
def woken : Stage β → Stage β
  | parked => awake false
  | stage => stage

theorem woken_of_ne {stage : Stage β} (hne : stage ≠ parked) : stage.woken = stage := by
  cases stage with
  | parked => exact absurd rfl hne
  | _ => rfl

theorem woken_ne_parked (stage : Stage β) : stage.woken ≠ parked := by
  cases stage <;> exact nofun

end Stage

/-- Whether a task ended with a fault. -/
def Outcome.isFault : Outcome ρ → Bool
  | value _ => false
  | fault _ => true

/-- What the workers of a pool go by. -/
structure Gauge (β : Type) where
  queue : List (Task β)
  enabled : Bool
  shutDown : Bool
  released : Bool

namespace Pool

variable {pool pool' : Pool β ρ} {i : Nat} {worker worker' : Worker β} {after : Stage β}

def gauge (pool : Pool β ρ) : Gauge β :=
  ⟨pool.queue.toList, pool.workEnabled, pool.shutDown, pool.released⟩

/-- A pool that turns out to be deserted drops its queue, and nothing else changes. -/
structure Abandons (pool pool' : Pool β ρ) : Prop where
  deserted : pool'.Deserted → pool'.gauge = { pool.gauge with queue := [] }
  kept : ¬pool'.Deserted → pool'.gauge = pool.gauge

theorem stage_setStage_eq {p : Pool β ρ} (hget : pool.workers[i]? = some worker)
    (hworkers : p.workers = pool.workers) :
    (p.setStage i worker' after).stage = Function.update pool.stage i after := by
  obtain ⟨hself, hothers⟩ :=
    stage_setStage (hworkers ▸ hget : p.workers[i]? = some worker)
  funext j
  by_cases hj : j = i
  · rw [hj, hself, Function.update_self]
  · rw [hothers j hj, Function.update_of_ne hj, stage, stage, hworkers]

theorem stage_woken (hget : pool.workers[i]? = some worker) :
    worker.woken.stage = (pool.stage i).woken := by
  rw [stage_of_getElem? hget]
  obtain ⟨before, thread⟩ := worker
  cases before <;> rfl

theorem stage_wakeAll (pool : Pool β ρ) : pool.wakeAll.stage = fun j => (pool.stage j).woken := by
  funext j
  cases hget : pool.workers[j]? with
  | none =>
    have hget' : pool.wakeAll.workers[j]? = none := by
      rw [wakeAll, List.getElem?_map, hget]
      rfl
    rw [stage, stage, hget, hget']
    rfl
  | some worker =>
    have hget' : pool.wakeAll.workers[j]? = some worker.woken := by
      rw [wakeAll, List.getElem?_map, hget]
      rfl
    rw [stage_of_getElem? hget', stage_woken hget]

theorem stage_wakeAll_setStage (hget : pool.workers[i]? = some worker) :
    (pool.wakeAll.setStage i worker' after).stage =
      Function.update (fun j => (pool.stage j).woken) i after := by
  have hget' : pool.wakeAll.workers[i]? = some worker.woken := by
    rw [wakeAll, List.getElem?_map, hget]
    rfl
  rw [stage_setStage_eq hget' rfl, stage_wakeAll]

theorem stage_modify (pool : Pool β ρ) (i : Nat) :
    stage { pool with workers := pool.workers.modify i Worker.woken } =
      Function.update pool.stage i (pool.stage i).woken := by
  funext j
  by_cases hj : j = i
  · subst hj
    rw [Function.update_self]
    cases hget : pool.workers[j]? with
    | none =>
      have hget' : (pool.workers.modify j Worker.woken)[j]? = none := by simp [hget]
      rw [stage, stage, hget, hget']
      rfl
    | some worker =>
      have hget' : (pool.workers.modify j Worker.woken)[j]? = some worker.woken := by simp [hget]
      rw [stage_of_getElem? hget', stage_woken hget]
  · rw [Function.update_of_ne hj, stage, stage]
    simp [Ne.symm hj]

theorem mem_parkedWorkers : i ∈ pool.parkedWorkers ↔ pool.stage i = .parked := by
  unfold parkedWorkers stage
  rw [List.mem_filter, List.mem_range]
  cases hget : pool.workers[i]? with
  | none =>
    refine iff_of_false (fun hmem => ?_) nofun
    cases hmem.2
  | some worker =>
    obtain ⟨before, thread⟩ := worker
    have hlt := (List.getElem?_eq_some_iff.1 hget).1
    refine ⟨fun hmem => ?_, fun hparked => ⟨hlt, ?_⟩⟩
    · have hparked := hmem.2
      cases before with
      | parked => rfl
      | _ => cases hparked
    · dsimp only at hparked ⊢
      rw [hparked]
      rfl

/-- Whoever wakes one worker moves a parked one on, or finds none. -/
theorem stage_wakeOne (pool : Pool β ρ) (choice : Choice) :
    (∃ j, pool.stage j = .parked ∧
      (pool.wakeOne choice).stage = Function.update pool.stage j (.awake false)) ∨
    (∀ j, pool.stage j ≠ .parked) ∧ pool.wakeOne choice = pool := by
  unfold wakeOne
  dsimp only
  split
  · next j hget =>
    have hparked := mem_parkedWorkers.1 (List.mem_of_getElem? hget)
    refine .inl ⟨j, hparked, ?_⟩
    rw [stage_modify, hparked]
    rfl
  · next hget =>
    refine .inr ⟨fun j hparked => ?_, rfl⟩
    have hpos : 0 < pool.parkedWorkers.length :=
      List.length_pos_of_mem (mem_parkedWorkers.2 hparked)
    exact absurd (Nat.mod_lt _ hpos) (Nat.not_lt.2 (List.getElem?_eq_none_iff.1 hget))

/-- Waking a worker changes neither flags nor queue. -/
theorem gauge_wakeOne (pool : Pool β ρ) (choice : Choice) :
    (pool.wakeOne choice).gauge = pool.gauge := by
  unfold wakeOne
  dsimp only
  split <;> rfl

theorem stage_collapse (pool : Pool β ρ) : pool.collapse.stage = pool.stage := by
  obtain hsame | ⟨-, board, hcollapse⟩ := pool.collapse_eq
  · rw [hsame]
  · rw [hcollapse]
    rfl

/-- A pool that drops its queue abandons it. -/
theorem abandons_collapse (hgauge : pool'.gauge = pool.gauge) : pool.Abandons pool'.collapse := by
  by_cases hdeserted : pool'.Deserted
  · obtain ⟨board, hcollapse⟩ := collapse_of_deserted hdeserted
    rw [hcollapse]
    refine ⟨fun _ => ?_, fun hkept => absurd hdeserted hkept⟩
    exact congrArg (fun gauge : Gauge β => { gauge with queue := [] }) hgauge
  · rw [collapse_of_not_deserted hdeserted]
    exact ⟨fun h => absurd h hdeserted, fun _ => hgauge⟩

/-- Nothing but the queue can be abandoned. -/
theorem Abandons.gauge_eq (habandons : pool.Abandons pool') :
    pool'.gauge = pool.gauge ∨ pool'.gauge = { pool.gauge with queue := [] } := by
  by_cases hdeserted : pool'.Deserted
  · exact .inr (habandons.deserted hdeserted)
  · exact .inl (habandons.kept hdeserted)

/-- What a single step of worker `i` does, if its task, in case it runs one, is about to end with
`outcome?` or to go on. -/
inductive Shift (i : Nat) (outcome? : Option (Outcome ρ)) (pool pool' : Pool β ρ) : Prop
  | take {draining : Bool} {task : Task β} {queue : List (Task β)}
      (hbefore : pool.stage i = .awake draining) (hqueue : pool.gauge.queue = task :: queue)
      (hgauge : pool'.gauge = { pool.gauge with queue })
      (hafter : pool'.stage = Function.update pool.stage i (.running task))
  /-- It finds nothing that it may take. -/
  | park {draining : Bool} (hbefore : pool.stage i = .awake draining)
      (hnone : pool.gauge.enabled = true → pool.gauge.queue = [])
      (hopen : pool.gauge.shutDown = false) (hgauge : pool'.gauge = pool.gauge)
      (hafter : pool'.stage = Function.update pool.stage i .parked)
  /-- It finds nothing that it may take, and the pool is shut down. -/
  | exit {draining : Bool} (hbefore : pool.stage i = .awake draining)
      (hnone : pool.gauge.enabled = true → pool.gauge.queue = [])
      (hshut : pool.gauge.shutDown = true) (hgauge : pool.Abandons pool')
      (hafter : pool'.stage = Function.update pool.stage i .exited)
  /-- Its task goes on. -/
  | go {after : Stage β} {released : Bool} (hbefore : (pool.stage i).audience?.isSome = true)
      (hquiet : (pool.stage i).isWaking = false ∧ after.isWaking = false)
      (hsame : after.audience? = (pool.stage i).audience?)
      (hreleased : pool.gauge.released = true → released = true)
      (hgauge : pool'.gauge = { pool.gauge with released })
      (hafter : pool'.stage = Function.update pool.stage i after)
  /-- Its task queues another one. -/
  | push {task task' queued : Task β} (hbefore : pool.stage i = .running task)
      (hsame : task'.audience = task.audience) (hopen : pool.gauge.shutDown = false)
      (hgauge : pool'.gauge = { pool.gauge with queue := pool.gauge.queue ++ [queued] })
      (hafter : pool'.stage = Function.update pool.stage i
        (if pool.gauge.enabled then .signalling task' else .running task'))
  | enableWork {task task' : Task β} (hbefore : pool.stage i = .running task)
      (hsame : task'.audience = task.audience)
      (hgauge : pool'.gauge = { pool.gauge with enabled := true })
      (hafter : pool'.stage = Function.update pool.stage i (.announcing task'))
  | disableWork {task task' : Task β} (hbefore : pool.stage i = .running task)
      (hsame : task'.audience = task.audience)
      (hgauge : pool'.gauge = { pool.gauge with enabled := false })
      (hafter : pool'.stage = Function.update pool.stage i (.running task'))
  | beginShutdown {last : Bool} {task : Task β} (hbefore : pool.stage i = .closing last .begun task)
      (hgauge : pool'.gauge = { pool.gauge with enabled := true, shutDown := true })
      (hafter : pool'.stage = Function.update pool.stage i (.closing last .flagged task))
  /-- It has queued a task before and wakes a parked worker, or finds none. -/
  | wakeOne {task : Task β} (hbefore : pool.stage i = .signalling task)
      (hgauge : pool'.gauge = pool.gauge)
      (hafter : (∃ j, i ≠ j ∧ pool.stage j = .parked ∧ pool'.stage =
          Function.update (Function.update pool.stage i (.running task)) j (.awake false)) ∨
        (∀ j, pool.stage j ≠ .parked) ∧
          pool'.stage = Function.update pool.stage i (.running task))
  /-- It has set a flag before and wakes every worker. -/
  | wakeAll {after : Stage β} (hbefore : (pool.stage i).isWaking = true)
      (hquiet : after.isWaking = false)
      (hunderway : after.audience?.isSome = true)
      (hsame : after.audience? = (pool.stage i).audience?) (hgauge : pool'.gauge = pool.gauge)
      (hafter : pool'.stage = Function.update (fun j => (pool.stage j).woken) i after)
  /-- Its task ends, and others hear of it or it did not fault. -/
  | conclude {task : Task β} {outcome : Outcome ρ} {after : Stage β}
      (hbefore : pool.stage i = .running task) (houtcome : outcome? = some outcome)
      (halive : ¬(task.audience = .nobody ∧ outcome.isFault = true))
      (hends : after = .awake true ∨ ∃ group, after = .leaving group)
      (hgauge : pool'.gauge = pool.gauge)
      (hafter : pool'.stage = Function.update pool.stage i after)
  /-- Its task faults, and nobody hears of it. -/
  | die {task : Task β} {outcome : Outcome ρ} (hbefore : pool.stage i = .running task)
      (houtcome : outcome? = some outcome) (hnobody : task.audience = .nobody)
      (hfault : outcome.isFault = true) (hgauge : pool.Abandons pool')
      (hafter : pool'.stage = Function.update pool.stage i .dead)
  | leave {group : GroupId} (hbefore : pool.stage i = .leaving group)
      (hgauge : pool'.gauge = pool.gauge)
      (hafter : pool'.stage = Function.update pool.stage i (.awake true))

section Shift

variable {outcome? : Option (Outcome ρ)}

/-- A worker that looks at the queue takes a task, parks or exits. -/
theorem shift_look {draining : Bool} (hget : pool.workers[i]? = some worker)
    (hstage : pool.stage i = .awake draining) :
    Shift i outcome? pool (pool.look i worker draining) := by
  unfold look
  split
  · next task queue hpop =>
    have hpop : pool.queue.pop? = some (task, queue) := by
      split at hpop
      · exact hpop
      · cases hpop
    exact .take hstage (Fifo.toList_of_pop? hpop) rfl
      (stage_setStage_eq (p := { pool with queue }) hget rfl)
  · next hpop =>
    have hnone : pool.workEnabled = true → pool.queue.toList = [] := by
      intro henabled
      rw [henabled, Bool.true_or, if_pos rfl] at hpop
      exact Fifo.pop?_eq_none_iff.1 hpop
    split
    · next hshut =>
      refine .exit hstage hnone hshut (abandons_collapse rfl) ?_
      rw [stage_collapse, stage_setStage_eq hget rfl]
    · next hopen =>
      exact .park hstage hnone (Bool.not_eq_true _ ▸ hopen) rfl (stage_setStage_eq hget rfl)

section Running

variable {task : Task β} (hget : pool.workers[i]? = some worker)
  (hstage : pool.stage i = .running task)

include hget hstage

/-- A worker that ends a task goes to give its place up, goes on, or dies. -/
theorem shift_conclude {outcome : Outcome ρ} (houtcome : outcome? = some outcome) :
    Shift i outcome? pool (pool.conclude i worker task.audience outcome) := by
  unfold conclude
  split
  · exact .conclude hstage houtcome (fun h => nomatch h.2) (.inl rfl) rfl
      (stage_setStage_eq hget rfl)
  · next payload hnobody =>
    refine .die hstage houtcome hnobody rfl (abandons_collapse rfl) ?_
    rw [stage_collapse, stage_setStage_eq hget rfl]
  · next id outcome hhandle =>
    refine .conclude hstage houtcome ?_ (.inl rfl) rfl (stage_setStage_eq hget rfl)
    rw [hhandle]
    exact fun h => nomatch h.1
  · exact .conclude hstage houtcome (fun h => nomatch h.2) (.inr ⟨_, rfl⟩) rfl
      (stage_setStage_eq hget rfl)
  · next id payload hgroup =>
    refine .conclude hstage houtcome ?_ (.inr ⟨_, rfl⟩) rfl (stage_setStage_eq hget rfl)
    rw [hgroup]
    exact fun h => nomatch h.1

/-- A task goes on, with another number of owners or another board. -/
theorem shift_continue {p : Pool β ρ} (hworkers : p.workers = pool.workers)
    (hgauge : p.gauge = pool.gauge) (hquiet : after.isWaking = false)
    (hsame : after.audience? = some task.audience) :
    Shift i outcome? pool (p.setStage i worker' after) := by
  refine .go ?_ ⟨?_, hquiet⟩ ?_ id hgauge
    (stage_setStage_eq hget hworkers)
  · rw [hstage]
    rfl
  · rw [hstage]
    rfl
  · rw [hstage]
    exact hsame

theorem shift_enqueueFrom {p : Pool β ρ} {accepted refused queued : Task β}
    (hworkers : p.workers = pool.workers) (hgauge : p.gauge = pool.gauge)
    (haccepted : accepted.audience = task.audience) (hrefused : refused.audience = task.audience) :
    Shift i outcome? pool (p.enqueueFrom i worker queued accepted refused) := by
  unfold enqueueFrom
  obtain ⟨-, hoffer⟩ | ⟨hopen, hoffer⟩ := p.offer?_cases queued
  · rw [hoffer]
    exact shift_continue (p := { p with board := p.board.refuse queued.audience }) hget hstage
      hworkers hgauge rfl (congrArg some hrefused)
  · rw [hoffer]
    have henabled : (p.accept queued).workEnabled = pool.gauge.enabled :=
      congrArg Gauge.enabled hgauge
    have hpush : (p.accept queued).gauge =
        { pool.gauge with queue := pool.gauge.queue ++ [queued] } := by
      rw [← hgauge]
      exact congrArg (fun queue => { p.gauge with queue }) (Fifo.toList_push p.queue queued)
    simp only [henabled]
    have hopen : pool.gauge.shutDown = false := (congrArg Gauge.shutDown hgauge).symm.trans hopen
    split
    · next hlit =>
      refine .push hstage haccepted hopen hpush ?_
      rw [if_pos hlit]
      exact stage_setStage_eq (p := p.accept queued) hget hworkers
    · next hlit =>
      refine .push hstage haccepted hopen hpush ?_
      rw [if_neg hlit]
      exact stage_setStage_eq (p := p.accept queued) hget hworkers

theorem shift_askFrom (rest : Reply → β) (request : Request β) :
    Shift i outcome? pool (pool.askFrom i worker task rest request) := by
  cases request with
  | execute body owners => exact shift_enqueueFrom hget hstage rfl rfl rfl rfl
  | submit body owners =>
    exact shift_enqueueFrom (p := { pool with board := pool.board.openHandle.2 }) hget hstage rfl
      rfl rfl rfl
  | spawnMember group body owners => exact shift_enqueueFrom hget hstage rfl rfl rfl rfl
  | signalWork =>
    refine .enableWork hstage ?_ rfl (stage_setStage_eq (p := pool.enableWork) hget rfl)
    rfl
  | signalWait =>
    refine .disableWork hstage ?_ rfl (stage_setStage_eq (p := pool.disableWork) hget rfl)
    rfl
  | finalize => exact shift_continue hget hstage rfl rfl rfl rfl

theorem shift_adoptFrom (rest : Bool → β) :
    Shift i outcome? pool (pool.adoptFrom i worker task rest) := by
  unfold adoptFrom
  split
  · exact shift_continue hget hstage rfl rfl rfl rfl
  · exact shift_continue (p := { pool with owners := pool.owners + 1 }) hget hstage rfl rfl rfl rfl

theorem shift_giveUpFrom {task' : Task β} (hsame : task'.audience = task.audience) :
    Shift i outcome? pool (pool.giveUpFrom i worker task') := by
  simp only [giveUpFrom]
  split
  · exact shift_continue (p := { pool with owners := pool.owners - 1 }) hget hstage rfl rfl rfl
      (congrArg some hsame)
  · exact shift_continue (p := { pool with owners := pool.owners - 1 }) hget hstage rfl rfl rfl
      (congrArg some hsame)

end Running

theorem shift_wakeOne {task : Task β} {choice : Choice} (hget : pool.workers[i]? = some worker)
    (hstage : pool.stage i = .signalling task) :
    Shift i outcome? pool ((pool.setStage i worker (.running task)).wakeOne choice) := by
  have hmiddle : (pool.setStage i worker (.running task)).stage =
      Function.update pool.stage i (.running task) := stage_setStage_eq hget rfl
  refine .wakeOne hstage (gauge_wakeOne _ choice) ?_
  obtain ⟨j, hparked, hafter⟩ | ⟨hnone, hafter⟩ :=
    (pool.setStage i worker (.running task)).stage_wakeOne choice
  · have hne : i ≠ j := by
      rintro rfl
      rw [hmiddle, Function.update_self] at hparked
      cases hparked
    rw [hmiddle, Function.update_of_ne hne.symm] at hparked
    exact .inl ⟨j, hne, hparked, hmiddle ▸ hafter⟩
  · refine .inr ⟨fun j hparked => hnone j ?_, (congrArg Pool.stage hafter).trans hmiddle⟩
    have hne : j ≠ i := by
      rintro rfl
      cases hstage.symm.trans hparked
    rw [hmiddle, Function.update_of_ne hne, hparked]

section Closing

variable {last : Bool} {closing : Closing} {task : Task β}

/-- A worker goes on closing its pool or with its task. -/
theorem shift_close {p : Pool β ρ} {released : Bool} (hget : pool.workers[i]? = some worker)
    (hstage : pool.stage i = .closing last closing task)
    (hcalm : (Stage.closing last closing task).isWaking = false)
    (hworkers : p.workers = pool.workers) (hreleased : pool.released = true → released = true)
    (hgauge : p.gauge = { pool.gauge with released }) (hquiet : after.isWaking = false)
    (hsame : after.audience? = some task.audience) :
    Shift i outcome? pool (p.setStage i worker' after) := by
  refine .go ?_ ⟨?_, hquiet⟩ ?_ hreleased hgauge (stage_setStage_eq hget hworkers)
  · rw [hstage]
    rfl
  · rw [hstage]
    exact hcalm
  · rw [hstage]
    exact hsame

theorem shift_resumeFrom {p : Pool β ρ} (hget : pool.workers[i]? = some worker)
    (hstage : pool.stage i = .closing last closing task)
    (hcalm : (Stage.closing last closing task).isWaking = false)
    (hworkers : p.workers = pool.workers) (hgauge : p.gauge = pool.gauge) :
    Shift i outcome? pool (p.resumeFrom i worker' last task) := by
  unfold resumeFrom
  split
  · have hrunning : ((p.setStage i worker' (.running task)).stage i).isOver = false := by
      rw [stage_setStage_eq hget hworkers, Function.update_self]
      rfl
    have hrelease : (p.setStage i worker' (.running task)).release =
        Pool.setStage { p with released := true } i worker' (.running task) :=
      collapse_of_not_isOver (i := i) hrunning
    rw [hrelease]
    exact shift_close (p := { p with released := true }) hget hstage hcalm
      hworkers (fun _ => rfl) (congrArg (fun gauge : Gauge β => { gauge with released := true })
        hgauge) rfl rfl
  · exact shift_close hget hstage hcalm hworkers id hgauge rfl rfl

/-- A worker that closes its pool goes about it as a client does. -/
theorem shift_closeFrom (hget : pool.workers[i]? = some worker)
    (hstage : pool.stage i = .closing last closing task)
    (hclose : pool.closeFrom i worker last task closing = some pool') :
    Shift i outcome? pool pool' := by
  cases closing with
  | begun =>
    cases hclose
    exact .beginShutdown hstage rfl (stage_setStage_eq (p := pool.beginShutdown) hget rfl)
  | flagged =>
    cases hclose
    refine .wakeAll ?_ ?_ ?_ ?_ rfl (stage_wakeAll_setStage hget)
    · rw [hstage]
      rfl
    · rfl
    · rfl
    · rw [hstage]
      rfl
  | announced =>
    simp only [closeFrom, takeWorkers] at hclose
    cases hleft : pool.unjoined with
    | nil =>
      rw [hleft] at hclose
      cases hclose
      exact shift_resumeFrom (p := { pool with unjoined := [] }) hget hstage rfl rfl rfl
    | cons j left =>
      rw [hleft] at hclose
      cases hclose
      exact shift_close (p := { pool with unjoined := [] }) hget hstage
        rfl rfl id rfl rfl rfl
  | joining left =>
    cases left with
    | nil =>
      cases hclose
      exact shift_resumeFrom hget hstage rfl rfl rfl
    | cons j left =>
      simp only [closeFrom] at hclose
      split at hclose
      · cases hclose
        exact shift_close hget hstage rfl rfl id rfl rfl rfl
      · cases hclose

end Closing

end Shift

end Pool

namespace Worksite

/-- How the task that a worker runs is about to end, if it does not go on. -/
def outcome? (B : Body β ε ρ) (i : Nat) (s : Worksite β ε ρ) : Option (Outcome ρ) :=
  match s.pool.workers[i]? with
  | some ⟨.running task, thread⟩ =>
    match B.step (s.pool.workerName i) thread s.env task.body with
    | .finish _ outcome => some outcome
    | _ => none
  | _ => none

/-- A step of a worker is a shift. -/
theorem workerStep_shift {B : Body β ε ρ} {choice : Choice} {i : Nat}
    {s s' : Worksite β ε ρ} (hstep : s.workerStep B choice i = some s') :
    Pool.Shift i (s.outcome? B i) s.pool s'.pool := by
  unfold workerStep at hstep
  split at hstep
  · cases hstep
  · next worker hget =>
    have hfound := Pool.stage_of_getElem? hget
    split at hstep
    · next draining hstage =>
      cases hstep
      exact Pool.shift_look hget (hfound.trans hstage)
    · next task hstage =>
      have hfound := hfound.trans hstage
      split at hstep <;> cases hstep
      · exact Pool.shift_continue hget hfound rfl rfl rfl rfl
      · exact Pool.shift_adoptFrom hget hfound _
      · exact Pool.shift_giveUpFrom hget hfound rfl
      · exact Pool.shift_askFrom hget hfound _ _
      · next outcome hfinish =>
        refine Pool.shift_conclude hget hfound ?_
        obtain ⟨before, thread⟩ := worker
        dsimp only at hstage
        subst hstage
        simp only [outcome?, hget, hfinish]
    · next task hstage =>
      cases hstep
      exact Pool.shift_wakeOne hget (hfound.trans hstage)
    · next task hstage =>
      cases hstep
      have hfound := hfound.trans hstage
      refine .wakeAll ?_ ?_ ?_ ?_ rfl (Pool.stage_wakeAll_setStage hget)
      · rw [hfound]
        rfl
      · rfl
      · rfl
      · rw [hfound]
        rfl
    · next last closing task hstage =>
      obtain ⟨pool', hclose, rfl⟩ := Option.map_eq_some_iff.1 hstep
      exact Pool.shift_closeFrom hget (hfound.trans hstage) hclose
    · next group hstage =>
      cases hstep
      exact .leave (hfound.trans hstage) rfl (Pool.stage_setStage_eq
        (p := { s.pool with board := s.pool.board.leaveGroup group }) hget rfl)
    · cases hstep
    · cases hstep
    · cases hstep

/-- A parked worker takes no step before it is woken. -/
theorem stage_ne_parked_of_workerStep {B : Body β ε ρ} {choice : Choice} {i : Nat}
    {s s' : Worksite β ε ρ} (hstep : s.workerStep B choice i = some s') :
    s.pool.stage i ≠ .parked := by
  intro hparked
  unfold workerStep at hstep
  split at hstep
  · cases hstep
  · next worker hget =>
    rw [Pool.stage_of_getElem? hget] at hparked
    simp only [hparked] at hstep
    cases hstep

/-- A worker that looks at the queue takes the foremost task if it may take one and there is one. -/
theorem workerStep_look {B : Body β ε ρ} {choice : Choice} {i : Nat} {s s' : Worksite β ε ρ}
    {draining : Bool} (hstep : s.workerStep B choice i = some s')
    (hstage : s.pool.stage i = .awake draining) :
    ((s.pool.workEnabled || draining) = true ∧ ∃ task queue,
        s.pool.queue.toList = task :: queue ∧ s'.pool.stage i = .running task) ∨
      ((s.pool.workEnabled || draining) = true → s.pool.queue.toList = []) ∧
        s'.pool.stage i = (if s.pool.shutDown then .exited else .parked) ∧
        s.pool.Abandons s'.pool := by
  unfold workerStep at hstep
  split at hstep
  · cases hstep
  · next worker hget =>
    rw [Pool.stage_of_getElem? hget] at hstage
    have hself : ∀ {p : Pool β ρ} {after : Stage β}, p.workers = s.pool.workers →
        (p.setStage i worker after).stage i = after := by
      intro p after hworkers
      rw [Pool.stage_setStage_eq hget hworkers, Function.update_self]
    simp only [hstage] at hstep
    obtain rfl := Option.some.inj hstep
    unfold Pool.look
    split
    · next task queue hpop =>
      split at hpop
      · next hmay => exact .inl ⟨hmay, task, _, Fifo.toList_of_pop? hpop, hself rfl⟩
      · cases hpop
    · next hpop =>
      refine .inr ⟨fun hmay => ?_, ?_⟩
      · rw [if_pos hmay] at hpop
        exact Fifo.pop?_eq_none_iff.1 hpop
      · split
        · exact ⟨(congrFun (Pool.stage_collapse _) i).trans (hself rfl), Pool.abandons_collapse rfl⟩
        · refine ⟨hself rfl, fun hdeserted => ?_, fun _ => rfl⟩
          have hover := hdeserted.2 i
          rw [hself rfl] at hover
          cases hover

end Worksite

end MarkSweep
