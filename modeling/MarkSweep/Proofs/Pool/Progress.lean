import MarkSweep.Proofs.Pool.Ledger
import Mathlib.Data.List.Forall2
import Mathlib.Order.WellFounded

namespace MarkSweep

variable {β ε ρ : Type}

namespace Pool

variable {pool pool' : Pool β ρ}

/-- Changes that touch the flags and wake workers, and nothing else that matters to tasks. -/
structure Stirred (pool pool' : Pool β ρ) : Prop where
  queue : pool'.queue = pool.queue
  board : pool'.board = pool.board
  released : pool'.released = pool.released
  workers : List.Forall₂ (fun worker worker' => worker' = worker ∨ worker' = worker.woken)
    pool.workers pool'.workers

theorem stirred_of_workers (hqueue : pool'.queue = pool.queue) (hboard : pool'.board = pool.board)
    (hreleased : pool'.released = pool.released) (hworkers : pool'.workers = pool.workers) :
    Stirred pool pool' :=
  ⟨hqueue, hboard, hreleased, hworkers ▸ List.forall₂_same.2 fun _ _ => .inl rfl⟩

theorem stirred_wakeAll (pool : Pool β ρ) : Stirred pool pool.wakeAll := by
  refine ⟨rfl, rfl, rfl, ?_⟩
  rw [wakeAll, List.forall₂_map_right_iff]
  exact List.forall₂_same.2 fun _ _ => .inr rfl

theorem stirred_modify (pool : Pool β ρ) (i : Nat) :
    Stirred pool { pool with workers := pool.workers.modify i Worker.woken } := by
  refine ⟨rfl, rfl, rfl, List.forall₂_iff_get.2 ⟨by simp, ?_⟩⟩
  intro j hj hj'
  simp only [List.get_eq_getElem, List.getElem_modify]
  split
  · exact .inr rfl
  · exact .inl rfl

theorem stirred_wakeOne (pool : Pool β ρ) (choice : Choice) :
    Stirred pool (pool.wakeOne choice) := by
  unfold wakeOne
  simp only
  split
  · next i hparked => exact stirred_modify pool i
  · exact stirred_of_workers rfl rfl rfl rfl

private theorem woken_eq (worker : Worker β) :
    worker.woken.stage.task? = worker.stage.task? ∧
      worker.woken.stage.group? = worker.stage.group? ∧
      worker.woken.stage.isPlain = worker.stage.isPlain ∧
      worker.woken.stage.isOver = worker.stage.isOver ∧
      worker.woken.thread = worker.thread := by
  obtain ⟨stage, thread⟩ := worker
  cases stage <;> exact ⟨rfl, rfl, rfl, rfl, rfl⟩

/-- What waking leaves alone is the same of all workers. -/
private theorem map_eq_of_stirred {γ : Type} {f : Worker β → γ}
    (hf : ∀ worker, f worker.woken = f worker) (hstirred : Stirred pool pool') :
    pool'.workers.map f = pool.workers.map f := by
  have hworkers := hstirred.workers
  generalize pool.workers = before at hworkers
  generalize pool'.workers = after at hworkers
  induction hworkers with
  | nil => rfl
  | cons hworker _ ih =>
    rw [List.map_cons, List.map_cons, ih]
    obtain rfl | rfl := hworker
    · rfl
    · rw [hf]

namespace Stirred

/-- A pool that was stirred has the same tasks in flight. -/
theorem inFlight (hstirred : Stirred pool pool') : pool'.inFlight = pool.inFlight := by
  have htasks := congrArg (List.filterMap id)
    (map_eq_of_stirred (f := (·.stage.task?)) (fun worker => (woken_eq worker).1) hstirred)
  simp only [List.filterMap_map, Function.id_comp] at htasks
  simp only [Pool.inFlight, hstirred.queue, htasks]

theorem places (hstirred : Stirred pool pool') : pool'.places = pool.places := by
  have hplaces := congrArg (List.filterMap id)
    (map_eq_of_stirred (f := (·.stage.group?)) (fun worker => (woken_eq worker).2.1) hstirred)
  simp only [List.filterMap_map, Function.id_comp] at hplaces
  exact hplaces

/-- How many workers have ended does not change. -/
theorem isOver (hstirred : Stirred pool pool') :
    pool'.workers.map (·.stage.isOver) = pool.workers.map (·.stage.isOver) :=
  map_eq_of_stirred (fun worker => (woken_eq worker).2.2.2.1) hstirred

/-- Waking workers leaves alone which lock levels they hold. -/
theorem held (hstirred : Stirred pool pool') :
    pool'.workers.map (·.thread.held) = pool.workers.map (·.thread.held) :=
  map_eq_of_stirred (fun worker => congrArg Thread.held (woken_eq worker).2.2.2.2) hstirred

/-- A calm pool that is stirred stays calm. -/
theorem calm (hstirred : Stirred pool pool')
    (hshut : pool.shutDown = true → pool'.shutDown = true) (hcalm : pool.Calm) : pool'.Calm := by
  have hplain := map_eq_of_stirred (f := (·.stage.isPlain))
    (fun worker => (woken_eq worker).2.2.1) hstirred
  refine ⟨hstirred.released.trans hcalm.kept, ?_, ?_, ?_, ?_⟩
  · intro hopened
    have hbefore : pool.shutDown = false := by
      cases hclosed : pool.shutDown with
      | false => rfl
      | true =>
        rw [hshut hclosed] at hopened
        cases hopened
    obtain ⟨worker, hmem, hlive⟩ := hcalm.manned hbefore
    have hmap : false ∈ pool'.workers.map (·.stage.isOver) := by
      rw [hstirred.isOver, ← hlive]
      exact List.mem_map_of_mem hmem
    obtain ⟨worker', hmem', hlive'⟩ := List.mem_map.1 hmap
    exact ⟨worker', hmem', hlive'⟩
  · rw [hstirred.inFlight]
    exact hcalm.heard
  · intro worker hmem
    have hmap : worker.stage.isPlain ∈ pool.workers.map (·.stage.isPlain) := by
      rw [← hplain]
      exact List.mem_map_of_mem hmem
    obtain ⟨before, hbefore, heq⟩ := List.mem_map.1 hmap
    rw [← heq]
    exact hcalm.plain before hbefore
  · intro worker hmem
    have hmap : worker.thread.held ∈ pool.workers.map (·.thread.held) := by
      rw [← hstirred.held]
      exact List.mem_map_of_mem hmem
    obtain ⟨before, hbefore, heq⟩ := List.mem_map.1 hmap
    rw [← heq]
    exact hcalm.free before hbefore

end Stirred

/-- The pool is not shut down, and `ended` says of each worker whether it has ended; some have not.
-/
structure Open (ended : List Bool) (pool : Pool β ρ) : Prop where
  opened : pool.shutDown = false
  crew : pool.workers.map (·.stage.isOver) = ended
  manned : false ∈ ended

/-- Besides, the work flag is clear. -/
structure Dozing (ended : List Bool) (pool : Pool β ρ) : Prop extends Open ended pool where
  disabled : pool.workEnabled = false

/-- Besides, the work flag is set. -/
structure Able (ended : List Bool) (pool : Pool β ρ) : Prop extends Open ended pool where
  enabled : pool.workEnabled = true

/-- Besides, somebody is at work or about to look at the queue, unless it is empty. -/
structure Alert (ended : List Bool) (pool : Pool β ρ) : Prop extends Able ended pool where
  attended : pool.queue.toList ≠ [] →
    ∃ worker ∈ pool.workers, worker.stage.isOver = false ∧ worker.stage.isParked = false

variable {ended : List Bool}

/-- In an open pool some worker is left. -/
theorem Open.exists_worker (hopen : pool.Open ended) :
    ∃ worker ∈ pool.workers, worker.stage.isOver = false := by
  have hmem := hopen.manned
  rw [← hopen.crew] at hmem
  obtain ⟨worker, hworker, hlive⟩ := List.mem_map.1 hmem
  exact ⟨worker, hworker, hlive⟩

theorem Open.of_stirred (hopen : pool.Open ended) (hstirred : Stirred pool pool')
    (hshut : pool'.shutDown = pool.shutDown) : pool'.Open ended :=
  ⟨hshut.trans hopen.opened, hstirred.isOver.trans hopen.crew, hopen.manned⟩

theorem Able.of_stirred (hable : pool.Able ended) (hstirred : Stirred pool pool')
    (henabled : pool'.workEnabled = pool.workEnabled) (hshut : pool'.shutDown = pool.shutDown) :
    pool'.Able ended :=
  ⟨hable.toOpen.of_stirred hstirred hshut, henabled.trans hable.enabled⟩

/-- Nothing about being alert concerns the board. -/
theorem Alert.setBoard (halert : pool.Alert ended) (board : Board ρ) :
    Alert ended { pool with board } :=
  ⟨⟨⟨halert.opened, halert.crew, halert.manned⟩, halert.enabled⟩, halert.attended⟩

private theorem isParked_woken (worker : Worker β) : worker.woken.stage.isParked = false := by
  obtain ⟨stage, thread⟩ := worker
  cases stage <;> rfl

/-- To wake every worker makes an able pool alert. -/
theorem Able.wakeAll (hable : pool.Able ended) : pool.wakeAll.Alert ended := by
  have hable' := hable.of_stirred (stirred_wakeAll pool) rfl rfl
  refine ⟨hable', fun _ => ?_⟩
  obtain ⟨worker, hmem, hlive⟩ := hable'.exists_worker
  obtain ⟨before, -, rfl⟩ := List.mem_map.1 hmem
  exact ⟨before.woken, hmem, hlive, isParked_woken before⟩

/-- To wake one worker makes an able pool alert. -/
theorem Able.wakeOne (hable : pool.Able ended) (choice : Choice) :
    (pool.wakeOne choice).Alert ended := by
  have hable' : (pool.wakeOne choice).Able ended := by
    refine hable.of_stirred (stirred_wakeOne pool choice) ?_ ?_ <;>
      simp only [Pool.wakeOne] <;> split <;> rfl
  refine ⟨hable', fun _ => ?_⟩
  unfold Pool.wakeOne
  simp only
  split
  · next i hparked =>
    have hmem := List.mem_of_getElem? hparked
    obtain ⟨hlt, hstage⟩ := List.mem_filter.1 hmem
    rw [List.mem_range] at hlt
    refine ⟨pool.workers[i].woken, ?_, ?_, isParked_woken _⟩
    · refine List.mem_of_getElem? (i := i) ?_
      rw [List.getElem?_modify_eq, List.getElem?_eq_getElem hlt]
      rfl
    · rw [(woken_eq _).2.2.2.1]
      rw [List.getElem?_eq_getElem hlt] at hstage
      simp only at hstage
      revert hstage
      cases pool.workers[i].stage <;> simp [Stage.isParked, Stage.isOver]
  · next hnone =>
    -- No worker is parked, so the one that has not ended is not.
    have hempty : pool.parkedWorkers = [] := by
      rcases hlist : pool.parkedWorkers with _ | ⟨i, parked⟩
      · rfl
      · rw [List.getElem?_eq_none_iff, hlist] at hnone
        have := Nat.mod_lt choice (List.length_pos_of_ne_nil (List.cons_ne_nil i parked))
        omega
    obtain ⟨worker, hmem, hlive⟩ := hable.exists_worker
    refine ⟨worker, hmem, hlive, ?_⟩
    obtain ⟨i, hlt, rfl⟩ := List.getElem_of_mem hmem
    by_contra hparked
    have hlisted : i ∈ pool.parkedWorkers := by
      refine List.mem_filter.2 ⟨List.mem_range.2 hlt, ?_⟩
      rw [List.getElem?_eq_getElem hlt]
      simpa using hparked
    rw [hempty] at hlisted
    cases hlisted

end Pool

namespace Worksite

variable {B : Body β ε ρ} {s s' : Worksite β ε ρ} {choice : Choice} {i : Nat} {ended : List Bool}

/-- Only a task that takes a step or ends changes the environment. -/
theorem workerStep_env (hstep : s.workerStep B choice i = some s') :
    s'.env = s.env ∨ ∃ name thread body,
      (∃ rest, B.step name thread s.env body = .next s'.env rest) ∨
        ∃ outcome, B.step name thread s.env body = .finish s'.env outcome := by
  unfold workerStep at hstep
  split at hstep
  · cases hstep
  · next worker _ =>
    split at hstep
    · cases hstep
      exact .inl rfl
    · next task _ =>
      split at hstep
      · next env rest hmove =>
        cases hstep
        exact .inr ⟨_, _, _, .inl ⟨rest, hmove⟩⟩
      · cases hstep
      · cases hstep
        exact .inl rfl
      · cases hstep
        exact .inl rfl
      · cases hstep
        exact .inl rfl
      · next env outcome hmove =>
        cases hstep
        exact .inr ⟨_, _, _, .inr ⟨outcome, hmove⟩⟩
    · cases hstep
      exact .inl rfl
    · cases hstep
      exact .inl rfl
    · obtain ⟨pool, -, rfl⟩ := Option.map_eq_some_iff.1 hstep
      exact .inl rfl
    · cases hstep
      exact .inl rfl
    · cases hstep
    · cases hstep
    · cases hstep

/-- The workers leave the flags of a calm pool alone. -/
theorem workerStep_flags (hplain : B.IsPlain) (hcalm : s.pool.Calm)
    (hstep : s.workerStep B choice i = some s') :
    s'.pool.workEnabled = s.pool.workEnabled ∧ s'.pool.shutDown = s.pool.shutDown := by
  obtain ⟨worker, stage, queue, board, env, hget, hturn, rfl⟩ := exists_turn hplain hcalm hstep
  exact ⟨rfl, rfl⟩

/-- Workers whose tasks ask nothing of their pool leave it open. -/
theorem workerStep_open (hplain : B.IsPlain) (hcalm : s.pool.Calm)
    (hstep : s.workerStep B choice i = some s') (hopen : s.pool.Open ended) :
    s'.pool.Open ended := by
  obtain ⟨worker, stage, queue, board, env, hget, hturn, rfl⟩ := exists_turn hplain hcalm hstep
  refine ⟨hopen.opened, ?_, hopen.manned⟩
  have hbefore : ended[i]? = some false := by
    rw [← hopen.crew, List.getElem?_map, hget, Option.map_some]
    generalize worker.stage = before at hturn
    cases hturn <;> rfl
  obtain ⟨hlt, hbefore⟩ := List.getElem?_eq_some_iff.1 hbefore
  rw [List.map_set, hopen.crew, hturn.isOver hopen.opened, ← hbefore]
  exact List.set_getElem_self hlt

theorem workerStep_dozing (hplain : B.IsPlain) (hcalm : s.pool.Calm)
    (hstep : s.workerStep B choice i = some s') (hdozing : s.pool.Dozing ended) :
    s'.pool.Dozing ended :=
  ⟨workerStep_open hplain hcalm hstep hdozing.toOpen,
    (workerStep_flags hplain hcalm hstep).1.trans hdozing.disabled⟩

/-- They leave its work flag set. -/
theorem workerStep_able (hplain : B.IsPlain) (hcalm : s.pool.Calm)
    (hstep : s.workerStep B choice i = some s') (hable : s.pool.Able ended) : s'.pool.Able ended :=
  ⟨workerStep_open hplain hcalm hstep hable.toOpen,
    (workerStep_flags hplain hcalm hstep).1.trans hable.enabled⟩

/-- A worker that parks leaves an empty queue behind. -/
theorem workerStep_alert (hplain : B.IsPlain) (hcalm : s.pool.Calm)
    (hstep : s.workerStep B choice i = some s') (halert : s.pool.Alert ended) :
    s'.pool.Alert ended := by
  refine ⟨workerStep_able hplain hcalm hstep halert.toAble, ?_⟩
  obtain ⟨worker, stage, queue, board, env, hget, hturn, rfl⟩ := exists_turn hplain hcalm hstep
  intro hqueue
  refine ⟨{ worker with stage }, List.mem_set (List.getElem?_eq_some_iff.1 hget).1 _,
    hturn.isOver halert.opened, ?_⟩
  generalize worker.stage = before at hturn
  cases hturn with
  | park hempty => exact absurd (hempty halert.enabled) hqueue
  | @finish task _ _ _ _ => cases task.audience <;> rfl
  | _ => rfl

/-- In an alert pool that has anything left to do, some worker can take a step. -/
theorem exists_workerStep (hplain : B.IsPlain) (hcalm : s.pool.Calm) (halert : s.pool.Alert ended)
    (hleft : s.pool.inFlight ≠ [] ∨ s.pool.places ≠ []) :
    ∃ i s', s.workerStep B 0 i = some s' := by
  -- A worker that has not ended and is not parked can take a step, whatever it is doing.
  have hcan : ∀ worker ∈ s.pool.workers, worker.stage.isOver = false →
      worker.stage.isParked = false → ∃ i s', s.workerStep B 0 i = some s' := by
    intro worker hmem hlive hunparked
    obtain ⟨i, hget⟩ := List.getElem?_of_mem hmem
    have hstage := hcalm.plain worker hmem
    refine ⟨i, ?_⟩
    unfold workerStep
    rw [hget]
    simp only
    split
    · exact ⟨_, rfl⟩
    · next task hrunning =>
      rcases hplain (s.pool.workerName i) worker.thread s.env task.body with
        ⟨env, rest, hbody⟩ | ⟨env, outcome, hbody⟩ <;> rw [hbody] <;> exact ⟨_, rfl⟩
    all_goals simp_all [Stage.isPlain, Stage.isOver, Stage.isParked]
  by_cases hqueue : s.pool.queue.toList = []
  · have hbusy : ∃ worker ∈ s.pool.workers,
        worker.stage.task? ≠ none ∨ worker.stage.group? ≠ none := by
      obtain hflight | hplaces := hleft
      · rw [Pool.inFlight, hqueue, List.nil_append] at hflight
        obtain ⟨task, hmem⟩ := List.exists_mem_of_ne_nil _ hflight
        obtain ⟨worker, hworker, htask⟩ := List.mem_filterMap.1 hmem
        exact ⟨worker, hworker, .inl (by rw [htask]; exact Option.some_ne_none task)⟩
      · obtain ⟨group, hmem⟩ := List.exists_mem_of_ne_nil _ hplaces
        obtain ⟨worker, hworker, hgroup⟩ := List.mem_filterMap.1 hmem
        exact ⟨worker, hworker, .inr (by rw [hgroup]; exact Option.some_ne_none group)⟩
    obtain ⟨worker, hmem, hbusy⟩ := hbusy
    refine hcan worker hmem ?_ ?_ <;> revert hbusy <;>
      cases worker.stage <;> simp [Stage.task?, Stage.group?, Stage.isOver, Stage.isParked]
  · obtain ⟨worker, hmem, hlive, hunparked⟩ := halert.attended hqueue
    exact hcan worker hmem hlive hunparked

/-- There is no endless sequence of steps of workers. -/
theorem wellFounded_workerStep (B : Body β ε ρ) [B.Sized] :
    WellFounded fun s' s : Worksite β ε ρ => ∃ choice i, s.workerStep B choice i = some s' := by
  refine Subrelation.wf ?_ (InvImage.wf (fun s : Worksite β ε ρ => (s.weight B, s.pool.restless))
    (Prod.lex Nat.lt_wfRel Nat.lt_wfRel).wf)
  rintro s' s ⟨choice, i, hstep⟩
  obtain hweight | ⟨hweight, hrestless⟩ := workerStep_lt hstep
  · exact .left _ _ hweight
  · obtain hweight | hweight := Nat.lt_or_eq_of_le hweight
    · exact .left _ _ hweight
    · refine Prod.lex_def.2 (.inr ⟨hweight, hrestless⟩)

end Worksite

end MarkSweep
