import MarkSweep.Proofs.Pool.Plant

namespace MarkSweep

variable {β ε ρ : Type}

/-- The task that a request asks the pool to queue. -/
def Request.task? (board : Board ρ) : Request β → Option (Task β)
  | execute body owners => some ⟨.nobody, body, owners⟩
  | submit body owners => some ⟨.handle board.nextHandle, body, owners⟩
  | spawnMember group body owners => some ⟨.group group, body, owners⟩
  | signalWork | signalWait | finalize => none

/-- The task that a worker asks the pool to queue in its next step. -/
def Worksite.asked? (B : Body β ε ρ) (i : Nat) (s : Worksite β ε ρ) : Option (Task β) :=
  match s.pool.workers[i]? with
  | some worker =>
    match worker.stage with
    | .running task =>
      match B.step (s.pool.workerName i) worker.thread s.env task.body with
      | .ask request _ => request.task? s.pool.board
      | _ => none
    | _ => none
  | none => none

namespace Pool

variable {pool pool' : Pool β ρ}

section Grown

variable {i : Nat} {worker : Worker β}

theorem grown_of_queue_eq (hqueue : pool'.queue = pool.queue) : pool.grown pool' = [] :=
  (Traffic.same hqueue).grown_eq

theorem grown_collapse (hgrown : pool.grown pool' = []) : pool.grown pool'.collapse = [] := by
  obtain hsame | ⟨-, board, hcollapse⟩ := pool'.collapse_eq
  · rwa [hsame]
  · rw [grown, hcollapse]
    exact List.drop_nil

theorem grown_look (pool : Pool β ρ) (i : Nat) (worker : Worker β) (draining : Bool) :
    pool.grown (pool.look i worker draining) = [] := by
  unfold look
  split
  · next task queue hpop =>
    split at hpop
    · exact (Traffic.pop hpop).grown_eq
    · cases hpop
  · split
    · exact grown_collapse (grown_of_queue_eq rfl)
    · exact grown_of_queue_eq rfl

theorem grown_conclude (pool : Pool β ρ) (i : Nat) (worker : Worker β) (audience : Audience)
    (outcome : Outcome ρ) : pool.grown (pool.conclude i worker audience outcome) = [] := by
  unfold conclude
  split
  · exact grown_of_queue_eq rfl
  · exact grown_collapse (grown_of_queue_eq rfl)
  · exact grown_of_queue_eq rfl
  · exact grown_of_queue_eq rfl
  · exact grown_of_queue_eq rfl

theorem grown_resumeFrom (hqueue : pool'.queue = pool.queue) (i : Nat) (worker : Worker β)
    (last : Bool) (task : Task β) : pool.grown (pool'.resumeFrom i worker last task) = [] := by
  unfold resumeFrom
  split
  · exact grown_collapse (grown_of_queue_eq hqueue)
  · exact grown_of_queue_eq hqueue

theorem grown_closeFrom {last : Bool} {task : Task β} {closing : Closing}
    (hclose : pool.closeFrom i worker last task closing = some pool') : pool.grown pool' = [] := by
  unfold closeFrom at hclose
  split at hclose
  · cases hclose
    exact grown_of_queue_eq rfl
  · cases hclose
    exact grown_of_queue_eq rfl
  · split at hclose
    · next htake =>
      cases hclose
      have hqueue := congrArg (fun taken => taken.2.queue) htake
      exact grown_resumeFrom hqueue.symm i worker last task
    · next htake =>
      cases hclose
      have hqueue := congrArg (fun taken => taken.2.queue) htake
      exact grown_of_queue_eq hqueue.symm
  · cases hclose
    exact grown_resumeFrom rfl i _ last task
  · split at hclose <;> cases hclose
    exact grown_of_queue_eq rfl

theorem grown_enqueueFrom {p : Pool β ρ} (hsame : p.queue = pool.queue ∧ p.shutDown = pool.shutDown)
    (i : Nat) (worker : Worker β) (queued accepted refused : Task β) :
    pool.grown (p.enqueueFrom i worker queued accepted refused) =
      if pool.shutDown then [] else [queued] := by
  obtain ⟨hqueue, hshut⟩ := hsame
  unfold enqueueFrom
  obtain ⟨hclosed, hoffer⟩ | ⟨hopen, hoffer⟩ := p.offer?_cases queued
  · rw [hoffer, if_pos (hshut.symm.trans hclosed)]
    exact grown_of_queue_eq hqueue
  · rw [hoffer, if_neg (by simp [← hshut, hopen])]
    have hpush : ∀ after : Stage β,
        pool.grown ((p.accept queued).setStage i worker after) = [queued] := by
      intro after
      exact (Traffic.push (hshut.symm.trans hopen) (congrArg (·.push queued) hqueue)).grown_eq
    simp only
    split
    · exact hpush _
    · exact hpush _

theorem grown_askFrom (pool : Pool β ρ) (i : Nat) (worker : Worker β) (task : Task β)
    (rest : Reply → β) (request : Request β) :
    pool.grown (pool.askFrom i worker task rest request) =
      if pool.shutDown then [] else (request.task? pool.board).toList := by
  cases request with
  | execute body owners => exact grown_enqueueFrom ⟨rfl, rfl⟩ i worker _ _ _
  | submit body owners =>
    exact grown_enqueueFrom (p := { pool with board := pool.board.openHandle.2 }) ⟨rfl, rfl⟩ i
      worker _ _ _
  | spawnMember group body owners => exact grown_enqueueFrom ⟨rfl, rfl⟩ i worker _ _ _
  | signalWork => exact (grown_of_queue_eq rfl).trans (ite_self []).symm
  | signalWait => exact (grown_of_queue_eq rfl).trans (ite_self []).symm
  | finalize => exact (grown_of_queue_eq rfl).trans (ite_self []).symm

end Grown

end Pool

/-- A step of a worker adds to the queue what its task asks for, unless the pool is shut down. -/
theorem Worksite.grown_workerStep {B : Body β ε ρ} {choice : Choice} {i : Nat}
    {s s' : Worksite β ε ρ} (hstep : s.workerStep B choice i = some s') :
    s.pool.grown s'.pool = if s.pool.shutDown then [] else (s.asked? B i).toList := by
  have hquiet : ∀ {pool : Pool β ρ}, s.pool.grown pool = [] →
      s.pool.grown pool = if s.pool.shutDown then [] else (none : Option (Task β)).toList :=
    fun hgrown => hgrown.trans (ite_self []).symm
  unfold workerStep at hstep
  unfold asked?
  split at hstep
  · cases hstep
  · next worker hget =>
    simp only [hget]
    split at hstep
    · next draining hstage =>
      cases hstep
      simp only [hstage]
      exact hquiet (Pool.grown_look s.pool i worker draining)
    · next task hstage =>
      simp only [hstage]
      split at hstep <;> cases hstep
      · next hmove =>
        simp only [hmove]
        exact hquiet (Pool.grown_of_queue_eq rfl)
      · next hmove =>
        simp only [hmove]
        refine hquiet (Pool.grown_of_queue_eq ?_)
        unfold Pool.adoptFrom
        split <;> rfl
      · next hmove =>
        simp only [hmove]
        refine hquiet (Pool.grown_of_queue_eq ?_)
        simp only [Pool.giveUpFrom]
        split <;> rfl
      · next request rest hmove =>
        simp only [hmove]
        exact Pool.grown_askFrom s.pool i worker task rest request
      · next env outcome hmove =>
        simp only [hmove]
        exact hquiet (Pool.grown_conclude s.pool i worker task.audience outcome)
    · next task hstage =>
      cases hstep
      simp only [hstage]
      exact hquiet (Pool.grown_of_queue_eq (Pool.stirred_wakeOne _ choice).queue)
    · next task hstage =>
      cases hstep
      simp only [hstage]
      exact hquiet (Pool.grown_of_queue_eq rfl)
    · next last closing task hstage =>
      obtain ⟨pool, hclose, rfl⟩ := Option.map_eq_some_iff.1 hstep
      simp only [hstage]
      exact hquiet (Pool.grown_closeFrom hclose)
    · next group hstage =>
      cases hstep
      simp only [hstage]
      exact hquiet (Pool.grown_of_queue_eq rfl)
    · cases hstep
    · cases hstep
    · cases hstep

/-- Whether a worker closes its pool as the last owner. -/
def Stage.closesLast : Stage β → Bool
  | closing true _ _ => true
  | _ => false

/-- Whether the tasks of a body never give up an owner of their pool. -/
def Body.Keeps (B : Body β ε ρ) : Prop :=
  ∀ name thread env body rest, B.step name thread env body ≠ .giveUp rest

namespace Pool

/-- Nobody closes the pool as its last owner, or has done so. -/
structure Owned (pool : Pool β ρ) : Prop where
  kept : pool.released = false
  shared : ∀ i, (pool.stage i).closesLast = false

section Owned

variable {pool pool' : Pool β ρ} {i : Nat} {worker : Worker β}

/-- A worker that does not close the pool leaves it owned. -/
theorem Owned.setStage {p : Pool β ρ} {worker' : Worker β} {after : Stage β}
    (howned : pool.Owned) (hget : pool.workers[i]? = some worker)
    (hsame : p.released = pool.released ∧ p.workers = pool.workers)
    (hafter : after.closesLast = false) : (p.setStage i worker' after).Owned := by
  have hp : p.workers[i]? = some worker := hsame.2 ▸ hget
  refine ⟨hsame.1.trans howned.kept, fun j => ?_⟩
  by_cases hj : j = i
  · rw [hj, (stage_setStage hp).1]
    exact hafter
  · rw [(stage_setStage hp).2 j hj, stage, hsame.2]
    exact howned.shared j

theorem Owned.of_stage (howned : pool.Owned) (hreleased : pool'.released = pool.released)
    (hstage : ∀ i, pool'.stage i = pool.stage i ∨
      pool.stage i = .parked ∧ pool'.stage i = .awake false) : pool'.Owned := by
  refine ⟨hreleased.trans howned.kept, fun i => ?_⟩
  obtain hsame | ⟨-, hawake⟩ := hstage i
  · rw [hsame]
    exact howned.shared i
  · rw [hawake]
    rfl

theorem Owned.stirred (howned : pool.Owned) (hstirred : pool.Stirred pool') : pool'.Owned :=
  howned.of_stage hstirred.released hstirred.stage

/-- A pool that has an owner does not collapse. -/
theorem Owned.collapse (howned : pool.Owned) : pool.collapse.Owned := by
  rwa [collapse_of_kept howned.kept]

/-- A client that does not give up an owner does not close the pool as the last one. -/
theorem Moves.owned {errand : Errand β} {k k' : Standing ρ} {t t' : Thread}
    (hmoves : Moves errand k t pool k' t' pool') (hkeeps : errand ≠ .dropOwner)
    (howned : pool.Owned) : pool'.Owned := by
  refine howned.of_stage ?_ hmoves.tended.stage
  cases hmoves with
  | release herrand => exact absurd herrand hkeeps
  | wakeOne choice => exact (stirred_wakeOne pool choice).released
  | _ => rfl

section Running

variable (howned : pool.Owned) (hget : pool.workers[i]? = some worker)

include howned hget

theorem owned_look (draining : Bool) : (pool.look i worker draining).Owned := by
  unfold look
  split
  · next task queue _ =>
    exact howned.setStage (p := { pool with queue }) hget ⟨rfl, rfl⟩ rfl
  · split
    · refine Owned.collapse ?_
      exact howned.setStage hget ⟨rfl, rfl⟩ rfl
    · exact howned.setStage hget ⟨rfl, rfl⟩ rfl

theorem owned_conclude (audience : Audience) (outcome : Outcome ρ) :
    (pool.conclude i worker audience outcome).Owned := by
  unfold conclude
  split
  · exact howned.setStage hget ⟨rfl, rfl⟩ rfl
  · refine Owned.collapse ?_
    exact howned.setStage hget ⟨rfl, rfl⟩ rfl
  · exact howned.setStage hget ⟨rfl, rfl⟩ rfl
  · exact howned.setStage hget ⟨rfl, rfl⟩ rfl
  · exact howned.setStage hget ⟨rfl, rfl⟩ rfl

theorem owned_enqueueFrom {p : Pool β ρ}
    (hsame : p.released = pool.released ∧ p.workers = pool.workers)
    (queued accepted refused : Task β) :
    (p.enqueueFrom i worker queued accepted refused).Owned := by
  unfold enqueueFrom
  obtain ⟨-, hoffer⟩ | ⟨-, hoffer⟩ := p.offer?_cases queued
  · rw [hoffer]
    exact howned.setStage hget hsame rfl
  · rw [hoffer]
    simp only
    split
    · exact howned.setStage (p := p.accept queued) hget hsame rfl
    · exact howned.setStage (p := p.accept queued) hget hsame rfl

theorem owned_askFrom (task : Task β) (rest : Reply → β) (request : Request β) :
    (pool.askFrom i worker task rest request).Owned := by
  cases request with
  | execute body owners => exact owned_enqueueFrom howned hget ⟨rfl, rfl⟩ _ _ _
  | submit body owners =>
    exact owned_enqueueFrom (p := { pool with board := pool.board.openHandle.2 }) howned hget
      ⟨rfl, rfl⟩ _ _ _
  | spawnMember group body owners => exact owned_enqueueFrom howned hget ⟨rfl, rfl⟩ _ _ _
  | signalWork => exact howned.setStage hget ⟨rfl, rfl⟩ rfl
  | signalWait => exact howned.setStage hget ⟨rfl, rfl⟩ rfl
  | finalize => exact howned.setStage hget ⟨rfl, rfl⟩ rfl

/-- A task that closes its pool on request leaves it to its owners. -/
theorem owned_closeFrom {closing : Closing} {task : Task β}
    (hclose : pool.closeFrom i worker false task closing = some pool') : pool'.Owned := by
  unfold closeFrom at hclose
  split at hclose
  · cases hclose
    exact howned.setStage hget ⟨rfl, rfl⟩ rfl
  · cases hclose
    rw [wakeAll_setStage _ _ _ rfl]
    refine Owned.stirred ?_ (stirred_wakeAll _)
    exact howned.setStage hget ⟨rfl, rfl⟩ rfl
  · rw [takeWorkers] at hclose
    cases hleft : pool.unjoined <;> rw [hleft] at hclose <;> cases hclose <;>
      exact howned.setStage hget ⟨rfl, rfl⟩ rfl
  · cases hclose
    exact howned.setStage hget ⟨rfl, rfl⟩ rfl
  · split at hclose <;> cases hclose
    exact howned.setStage hget ⟨rfl, rfl⟩ rfl

end Running

end Owned

end Pool

/-- Workers whose tasks give up no owner leave the pool to its owners. -/
theorem Worksite.owned_workerStep {B : Body β ε ρ} (hkeeps : B.Keeps) {choice : Choice} {i : Nat}
    {s s' : Worksite β ε ρ} (hstep : s.workerStep B choice i = some s')
    (howned : s.pool.Owned) : s'.pool.Owned := by
  unfold workerStep at hstep
  split at hstep
  · cases hstep
  · next worker hget =>
    split at hstep
    · next draining hstage =>
      cases hstep
      exact Pool.owned_look howned hget draining
    · next task hstage =>
      split at hstep <;> cases hstep
      · exact howned.setStage hget ⟨rfl, rfl⟩ rfl
      · simp only [Pool.adoptFrom]
        split <;> exact howned.setStage hget ⟨rfl, rfl⟩ rfl
      · next hmove => exact absurd hmove (hkeeps _ _ _ _ _)
      · exact Pool.owned_askFrom howned hget task _ _
      · exact Pool.owned_conclude howned hget task.audience _
    · next task hstage =>
      cases hstep
      refine Pool.Owned.stirred ?_ (Pool.stirred_wakeOne _ choice)
      exact howned.setStage hget ⟨rfl, rfl⟩ rfl
    · next task hstage =>
      cases hstep
      simp only
      rw [Pool.wakeAll_setStage _ _ _ rfl]
      refine Pool.Owned.stirred ?_ (Pool.stirred_wakeAll _)
      exact howned.setStage hget ⟨rfl, rfl⟩ rfl
    · next last closing task hstage =>
      obtain ⟨pool, hclose, rfl⟩ := Option.map_eq_some_iff.1 hstep
      cases last with
      | true =>
        have hshared := howned.shared i
        rw [Pool.stage_of_getElem? hget, hstage] at hshared
        cases hshared
      | false => exact Pool.owned_closeFrom howned hget hclose
    · next group hstage =>
      cases hstep
      exact howned.setStage hget ⟨rfl, rfl⟩ rfl
    · cases hstep
    · cases hstep
    · cases hstep

end MarkSweep
