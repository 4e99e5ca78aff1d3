import MarkSweep.Pool.Settle

namespace MarkSweep

variable {β ε ρ : Type}

namespace Stage

/-- The task that a worker runs. -/
def task? : Stage β → Option (Task β)
  | running task => some task
  | _ => none

/-- The group in which a worker's last task still has a place. -/
def group? : Stage β → Option GroupId
  | leaving group => some group
  | _ => none

/-- Whether a worker is not in the middle of anything that concerns the pool as a whole. -/
def isPlain : Stage β → Bool
  | signalling _ | announcing _ | closing _ _ _ => false
  | _ => true

end Stage

/-- The places in groups that a task keeps when it ends. -/
def Audience.places : Audience → List GroupId
  | group id => [id]
  | nobody | handle _ => []

/-- What a worker does right after a task of this audience. -/
def Audience.after : Audience → Stage β
  | group id => .leaving id
  | nobody | handle _ => .awake true

/-- What a board shows after a task of this audience has ended. -/
def Board.hear (board : Board ρ) : Audience → Outcome ρ → Board ρ
  | .handle id, outcome => board.tell id (.delivered outcome)
  | .group id, .fault payload => board.recordFault id payload.message
  | .group _, .value _ | .nobody, _ => board

namespace Pool

/-- The tasks that were accepted and have not ended. -/
def inFlight (pool : Pool β ρ) : List (Task β) :=
  pool.queue.toList ++ pool.workers.filterMap (·.stage.task?)

/-- The places in groups that tasks keep that have ended. -/
def places (pool : Pool β ρ) : List GroupId := pool.workers.filterMap (·.stage.group?)

/-- Somebody keeps the pool, some worker goes on until the pool is shut down, every task answers to
somebody, and the workers hold no lock and are not in the middle of anything that concerns the pool
as a whole. -/
structure Calm (pool : Pool β ρ) : Prop where
  kept : pool.released = false
  manned : pool.shutDown = false → ∃ worker ∈ pool.workers, worker.stage.isOver = false
  heard : ∀ task ∈ pool.inFlight, task.audience ≠ .nobody
  plain : ∀ worker ∈ pool.workers, worker.stage.isPlain = true
  free : ∀ worker ∈ pool.workers, worker.thread.held = []

theorem eq_create {workers : Nat} {name : String} {pool : Pool β ρ}
    (hpool : create? workers name = .ok pool) : pool = create workers name := by
  unfold create? at hpool
  cases hcapacity : checkCapacity (clampWorkers workers) joinBytes with
  | error fault =>
    rw [hcapacity] at hpool
    cases hpool
  | ok _ =>
    cases hname : checkThreadName (nameWorker name 0) with
    | error fault =>
      rw [hcapacity, hname] at hpool
      cases hpool
    | ok _ =>
      rw [hcapacity, hname] at hpool
      exact (Except.ok.inj hpool).symm

/-- A pool that somebody keeps does not collapse. -/
theorem collapse_of_kept {pool : Pool β ρ} (hkept : pool.released = false) :
    pool.collapse = pool := by
  rw [collapse, hkept, Bool.false_and, if_neg Bool.false_ne_true]

/-- Nothing about being calm concerns the board. -/
theorem Calm.setBoard {pool : Pool β ρ} (hcalm : pool.Calm) (board : Board ρ) :
    Calm { pool with board } :=
  ⟨hcalm.kept, hcalm.manned, hcalm.heard, hcalm.plain, hcalm.free⟩

/-- A pool that has accepted a task, behind all others. -/
def accept (pool : Pool β ρ) (task : Task β) : Pool β ρ :=
  { pool with
    queue := pool.queue.push task
    owners := pool.owners + task.owners
    board := pool.board.enlist task.audience }

theorem offer?_eq (pool : Pool β ρ) (task : Task β) :
    pool.offer? task = if pool.shutDown then none else some (pool.accept task) := rfl

theorem offer?_cases (pool : Pool β ρ) (task : Task β) :
    pool.shutDown = true ∧ pool.offer? task = none ∨
      pool.shutDown = false ∧ pool.offer? task = some (pool.accept task) := by
  rw [offer?_eq]
  by_cases hshut : pool.shutDown = true
  · exact .inl ⟨hshut, if_pos hshut⟩
  · exact .inr ⟨Bool.eq_false_iff.2 hshut, if_neg hshut⟩

/-- The queue has the new task at its end, in front of the tasks that run. -/
theorem inFlight_accept (pool : Pool β ρ) (task : Task β) :
    (pool.accept task).inFlight.Perm (task :: pool.inFlight) := by
  simp only [inFlight, accept, Fifo.toList_push, List.append_assoc]
  exact List.perm_middle

/-- A pool stays calm when it takes a task that answers to somebody. -/
theorem Calm.accept {pool : Pool β ρ} {task : Task β} (hcalm : pool.Calm)
    (hheard : task.audience ≠ .nobody) : (pool.accept task).Calm := by
  refine ⟨hcalm.kept, hcalm.manned, ?_, hcalm.plain, hcalm.free⟩
  intro other hmem
  obtain rfl | hmem := List.mem_cons.1 ((inFlight_accept pool task).mem_iff.1 hmem)
  · exact hheard
  · exact hcalm.heard other hmem

/-- What a worker is at is in flight. -/
theorem mem_inFlight_of_running {pool : Pool β ρ} {i : Nat} {worker : Worker β} {task : Task β}
    (hget : pool.workers[i]? = some worker) (hstage : worker.stage = .running task) :
    task ∈ pool.inFlight := by
  refine List.mem_append_right _ (List.mem_filterMap.2 ⟨worker, List.mem_of_getElem? hget, ?_⟩)
  rw [hstage]
  rfl

end Pool

namespace Worksite

/-- What a worker can do to its stage, the queue, the board and the environment when its pool is
calm. -/
inductive Turn (B : Body β ε ρ) (s : Worksite β ε ρ) (thread : Thread) :
    Stage β → Stage β → Fifo (Task β) → Board ρ → ε → Prop
  /-- It takes the foremost task. -/
  | take {draining : Bool} {task : Task β} {queue : Fifo (Task β)}
      (hpop : s.pool.queue.toList = task :: queue.toList) :
      Turn B s thread (.awake draining) (.running task) queue s.pool.board s.env
  /-- It finds nothing to take and waits to be woken. -/
  | park {draining : Bool} (hempty : s.pool.workEnabled = true → s.pool.queue.toList = []) :
      Turn B s thread (.awake draining) .parked s.pool.queue s.pool.board s.env
  /-- It finds nothing to take and the pool shut down. -/
  | exit {draining : Bool} (hshut : s.pool.shutDown = true) :
      Turn B s thread (.awake draining) .exited s.pool.queue s.pool.board s.env
  /-- Its task takes a step. -/
  | advance {task : Task β} {name : String} {env : ε} {rest : β}
      (hstep : B.step name thread s.env task.body = .next env rest) :
      Turn B s thread (.running task) (.running { task with body := rest }) s.pool.queue
        s.pool.board env
  /-- Its task ends. -/
  | finish {task : Task β} {name : String} {env : ε} {outcome : Outcome ρ}
      (hstep : B.step name thread s.env task.body = .finish env outcome) :
      Turn B s thread (.running task) task.audience.after s.pool.queue
        (s.pool.board.hear task.audience outcome) env
  /-- Its last task gives up its place in a group. -/
  | leave {group : GroupId} :
      Turn B s thread (.leaving group) (.awake true) s.pool.queue (s.pool.board.leaveGroup group)
        s.env

variable {B : Body β ε ρ} {s s' : Worksite β ε ρ} {choice : Choice} {i : Nat}

/-- No worker of a calm pool ends before the pool is shut down. -/
theorem Turn.isOver {thread : Thread} {before after : Stage β} {queue : Fifo (Task β)}
    {board : Board ρ} {env : ε} (hopened : s.pool.shutDown = false)
    (hturn : Turn B s thread before after queue board env) : after.isOver = false := by
  cases hturn with
  | exit hshut =>
    rw [hopened] at hshut
    cases hshut
  | @finish task _ _ _ _ => cases task.audience <;> rfl
  | _ => rfl

/-- A worker that looks at the queue of a calm pool. -/
theorem exists_turn_look (hcalm : s.pool.Calm) (worker : Worker β) (draining : Bool) :
    ∃ stage queue, Turn B s worker.thread (.awake draining) stage queue s.pool.board s.env ∧
      s.pool.look i worker draining =
        { s.pool with queue, workers := s.pool.workers.set i { worker with stage } } := by
  unfold Pool.look
  split
  · next task queue hpop =>
    refine ⟨.running task, queue, .take ?_, rfl⟩
    split at hpop
    · exact Fifo.toList_of_pop? hpop
    · cases hpop
  · next hpop =>
    split
    · next hshut =>
      -- Somebody still owns the pool, so the last worker to exit does not drop it.
      rw [Pool.collapse_of_kept (show (s.pool.setStage i worker .exited).released = false from
        hcalm.kept)]
      exact ⟨.exited, s.pool.queue, .exit hshut, rfl⟩
    · refine ⟨.parked, s.pool.queue, .park ?_, rfl⟩
      intro henabled
      rw [henabled, Bool.true_or, if_pos rfl] at hpop
      exact Fifo.pop?_eq_none_iff.1 hpop

/-- The step of a worker in a calm pool. -/
theorem exists_turn (hplain : B.IsPlain) (hcalm : s.pool.Calm)
    (hstep : s.workerStep B choice i = some s') :
    ∃ worker stage queue board env, s.pool.workers[i]? = some worker ∧
      Turn B s worker.thread worker.stage stage queue board env ∧
      s' = ⟨{ s.pool with
        queue, board, workers := s.pool.workers.set i { worker with stage } }, env⟩ := by
  unfold workerStep at hstep
  split at hstep
  · cases hstep
  · next worker hget =>
    refine ⟨worker, ?_⟩
    have hcalmStage := hcalm.plain worker (List.mem_of_getElem? hget)
    split at hstep
    · next draining hstage =>
      cases hstep
      obtain ⟨stage, queue, hturn, hlook⟩ :=
        exists_turn_look (B := B) (i := i) hcalm worker draining
      rw [hstage, hlook]
      exact ⟨stage, queue, s.pool.board, s.env, hget, hturn, rfl⟩
    · next task hstage =>
      have hheard := hcalm.heard task (Pool.mem_inFlight_of_running hget hstage)
      rw [hstage]
      rcases hplain (s.pool.workerName i) worker.thread s.env task.body with
        ⟨env, rest, hbody⟩ | ⟨env, outcome, hbody⟩
      · rw [hbody] at hstep
        cases hstep
        exact ⟨.running { task with body := rest }, s.pool.queue, s.pool.board, env, hget,
          .advance hbody, rfl⟩
      · rw [hbody] at hstep
        cases hstep
        refine ⟨task.audience.after, s.pool.queue, s.pool.board.hear task.audience outcome, env,
          hget, .finish hbody, ?_⟩
        obtain ⟨audience, body, owners⟩ := task
        cases audience with
        | nobody => exact absurd rfl hheard
        | handle id => rfl
        | group id => cases outcome <;> rfl
    · next task hstage =>
      rw [hstage] at hcalmStage
      cases hcalmStage
    · next task hstage =>
      rw [hstage] at hcalmStage
      cases hcalmStage
    · next last closing task hstage =>
      rw [hstage] at hcalmStage
      cases hcalmStage
    · next group hstage =>
      cases hstep
      rw [hstage]
      exact ⟨.awake true, s.pool.queue, s.pool.board.leaveGroup group, s.env, hget, .leave, rfl⟩
    · cases hstep
    · cases hstep
    · cases hstep

end Worksite

/-- What matters of a pool and its environment while tasks compute and end. -/
structure Ledger (β ε ρ : Type) where
  /-- What the tasks share. -/
  env : ε
  /-- The tasks that have not ended. -/
  tasks : List (Task β)
  /-- The places in groups that tasks keep that have ended. -/
  places : List GroupId
  /-- The handles and groups. -/
  board : Board ρ
  /-- Whether the pool no longer accepts tasks. -/
  shutDown : Bool

/-- The ledger of a pool and its environment. -/
def Worksite.ledger (s : Worksite β ε ρ) : Ledger β ε ρ :=
  ⟨s.env, s.pool.inFlight, s.pool.places, s.pool.board, s.pool.shutDown⟩

namespace Ledger

/-- Ledgers that differ in the order of their lists only. -/
structure Similar (l l' : Ledger β ε ρ) : Prop where
  env : l'.env = l.env
  tasks : l.tasks.Perm l'.tasks
  places : l.places.Perm l'.places
  board : l'.board = l.board
  shutDown : l'.shutDown = l.shutDown

/-- What a step of a worker can do to a ledger. -/
inductive Turn (B : Body β ε ρ) : Ledger β ε ρ → Ledger β ε ρ → Prop
  /-- A task takes a step. -/
  | advance {env env' : ε} {task : Task β} {rest : β} {tasks : List (Task β)}
      {places : List GroupId} {board : Board ρ} {shut : Bool} {name : String} {thread : Thread}
      (hfree : thread.held = [])
      (hstep : B.step name thread env task.body = .next env' rest) :
      Turn B ⟨env, task :: tasks, places, board, shut⟩
        ⟨env', { task with body := rest } :: tasks, places, board, shut⟩
  /-- A task ends. -/
  | finish {env env' : ε} {task : Task β} {outcome : Outcome ρ} {tasks : List (Task β)}
      {places : List GroupId} {board : Board ρ} {shut : Bool} {name : String} {thread : Thread}
      (hfree : thread.held = [])
      (hstep : B.step name thread env task.body = .finish env' outcome) :
      Turn B ⟨env, task :: tasks, places, board, shut⟩
        ⟨env', tasks, task.audience.places ++ places, board.hear task.audience outcome, shut⟩
  /-- A task that has ended gives up its place. -/
  | leave {env : ε} {tasks : List (Task β)} {group : GroupId} {places : List GroupId}
      {board : Board ρ} {shut : Bool} :
      Turn B ⟨env, tasks, group :: places, board, shut⟩
        ⟨env, tasks, places, board.leaveGroup group, shut⟩

/-- A property of ledgers that the workers of a calm pool keep. -/
structure Kept (B : Body β ε ρ) (P : Ledger β ε ρ → Prop) : Prop where
  similar : ∀ {l l'}, P l → Similar l l' → P l'
  turn : ∀ {l l'}, P l → Turn B l l' → P l'

variable {B : Body β ε ρ} {l l' : Ledger β ε ρ} {P : Ledger β ε ρ → Prop}

/-- Where nothing is left to do, there is no order to change. -/
theorem Similar.eq_of_rest (hsimilar : Similar l l') (hrest : l.tasks = [] ∧ l.places = []) :
    l' = l := by
  obtain ⟨env, tasks, places, board, shut⟩ := l
  obtain ⟨env', tasks', places', board', shut'⟩ := l'
  obtain ⟨rfl, htasks, hplaces, rfl, rfl⟩ := hsimilar
  obtain ⟨rfl, rfl⟩ := hrest
  cases htasks.symm.eq_nil
  cases hplaces.symm.eq_nil
  rfl

/-- While there is nothing to do there are no turns. -/
theorem Turn.not_rest (hturn : Turn B l l') : ¬(l.tasks = [] ∧ l.places = []) := by
  rintro ⟨htasks, hplaces⟩
  cases hturn with
  | advance _ _ | finish _ _ => cases htasks
  | leave => cases hplaces

/-- Workers that have nothing left to do leave the ledger alone. -/
theorem kept_of_rest (hrest : ∀ l, P l → l.tasks = [] ∧ l.places = []) : Kept B P where
  similar := by
    intro l l' hl hsimilar
    rw [hsimilar.eq_of_rest (hrest l hl)]
    exact hl
  turn := fun hl hturn => absurd (hrest _ hl) hturn.not_rest

end Ledger

private theorem filterMap_cons_toList {α γ : Type} (f : α → Option γ) (a : α) (l : List α) :
    (a :: l).filterMap f = (f a).toList ++ l.filterMap f := by
  rw [List.filterMap_cons]
  cases f a <;> rfl

/-- Up to order, replacing a member of a list replaces what it contributes. -/
theorem exists_perm_filterMap_of_getElem? {α γ : Type} (f : α → Option γ) {l : List α} {i : Nat}
    {a : α} (hget : l[i]? = some a) :
    ∃ rest, (l.filterMap f).Perm ((f a).toList ++ rest) ∧
      ∀ b, ((l.set i b).filterMap f).Perm ((f b).toList ++ rest) := by
  obtain ⟨others, hperm, hset⟩ := exists_perm_cons_of_getElem? hget
  refine ⟨others.filterMap f, ?_, fun b => ?_⟩
  · rw [← filterMap_cons_toList]
    exact hperm.filterMap f
  · rw [← filterMap_cons_toList]
    exact (hset b).filterMap f

namespace Worksite

variable {B : Body β ε ρ} {s s' : Worksite β ε ρ} {choice : Choice} {i : Nat}
  {P : Ledger β ε ρ → Prop}

/-- Up to order, a step of a worker in a calm pool leaves the ledger alone or is a turn of it. -/
theorem exists_ledger_turn (hplain : B.IsPlain) (hcalm : s.pool.Calm)
    (hstep : s.workerStep B choice i = some s') :
    ∃ l l', s.ledger.Similar l ∧ l'.Similar s'.ledger ∧ (l = l' ∨ l.Turn B l') := by
  obtain ⟨worker, stage, queue, board, env, hget, hturn, rfl⟩ := exists_turn hplain hcalm hstep
  have hfree := hcalm.free worker (List.mem_of_getElem? hget)
  obtain ⟨tasks, htasks, hset⟩ := exists_perm_filterMap_of_getElem?
    (fun worker : Worker β => worker.stage.task?) hget
  obtain ⟨places, hplaces, hsetPlaces⟩ := exists_perm_filterMap_of_getElem?
    (fun worker : Worker β => worker.stage.group?) hget
  replace hset := hset { worker with stage }
  replace hsetPlaces := hsetPlaces { worker with stage }
  generalize worker.stage = before at hturn htasks hplaces
  -- The queued tasks stay in front, so the running task has to be brought there first.
  cases hturn with
  | take hpop =>
    refine ⟨s.ledger, s.ledger, ⟨rfl, .refl _, .refl _, rfl, rfl⟩,
      ⟨rfl, ?_, ?_, rfl, rfl⟩, .inl rfl⟩
    · refine ((htasks.append_left _).trans ?_).trans (hset.symm.append_left _)
      rw [hpop]
      exact List.perm_middle.symm
    · exact hplaces.trans hsetPlaces.symm
  | park _ | exit _ =>
    refine ⟨s.ledger, s.ledger, ⟨rfl, .refl _, .refl _, rfl, rfl⟩,
      ⟨rfl, ?_, ?_, rfl, rfl⟩, .inl rfl⟩
    · exact (htasks.trans hset.symm).append_left _
    · exact hplaces.trans hsetPlaces.symm
  | @advance task _ _ rest hbody =>
    refine ⟨⟨s.env, task :: (s.pool.queue.toList ++ tasks), places, s.pool.board, s.pool.shutDown⟩,
      ⟨env, { task with body := rest } :: (s.pool.queue.toList ++ tasks), places, s.pool.board,
        s.pool.shutDown⟩,
      ⟨rfl, ?_, hplaces, rfl, rfl⟩, ⟨rfl, ?_, hsetPlaces.symm, rfl, rfl⟩,
      .inr (.advance hfree hbody)⟩
    · exact (htasks.append_left _).trans List.perm_middle
    · exact List.perm_middle.symm.trans (hset.symm.append_left _)
  | @finish task _ _ outcome hbody =>
    refine ⟨⟨s.env, task :: (s.pool.queue.toList ++ tasks), places, s.pool.board, s.pool.shutDown⟩,
      ⟨env, s.pool.queue.toList ++ tasks, task.audience.places ++ places,
        s.pool.board.hear task.audience outcome, s.pool.shutDown⟩,
      ⟨rfl, ?_, hplaces, rfl, rfl⟩, ⟨rfl, ?_, ?_, rfl, rfl⟩, .inr (.finish hfree hbody)⟩
    · exact (htasks.append_left _).trans List.perm_middle
    · refine (hset.trans ?_).symm.append_left _
      cases task.audience <;> exact .refl _
    · refine .trans ?_ hsetPlaces.symm
      cases task.audience <;> exact .refl _
  | @leave group =>
    refine ⟨⟨s.env, s.pool.inFlight, group :: places, s.pool.board, s.pool.shutDown⟩,
      ⟨s.env, s.pool.inFlight, places, s.pool.board.leaveGroup group, s.pool.shutDown⟩,
      ⟨rfl, .refl _, hplaces, rfl, rfl⟩, ⟨rfl, ?_, hsetPlaces.symm, rfl, rfl⟩, .inr .leave⟩
    exact (htasks.trans hset.symm).append_left _

/-- What the workers keep of the ledger of a calm pool holds after their steps. -/
theorem workerStep_ledger (hplain : B.IsPlain) (hkept : Ledger.Kept B P) (hcalm : s.pool.Calm)
    (hstep : s.workerStep B choice i = some s') (hs : P s.ledger) : P s'.ledger := by
  obtain ⟨l, l', hbefore, hafter, rfl | hturn⟩ := exists_ledger_turn hplain hcalm hstep
  · exact hkept.similar (hkept.similar hs hbefore) hafter
  · exact hkept.similar (hkept.turn (hkept.similar hs hbefore) hturn) hafter

/-- A calm pool stays calm. -/
theorem workerStep_calm (hplain : B.IsPlain) (hcalm : s.pool.Calm)
    (hstep : s.workerStep B choice i = some s') : s'.pool.Calm := by
  have hheard : ∀ task ∈ s'.ledger.tasks, task.audience ≠ .nobody := by
    refine workerStep_ledger (P := fun l => ∀ task ∈ l.tasks, task.audience ≠ .nobody) hplain
      ⟨?_, ?_⟩ hcalm hstep hcalm.heard
    · intro l l' hl hsimilar task hmem
      exact hl task (hsimilar.tasks.mem_iff.2 hmem)
    · rintro l l' hl hturn task hmem
      cases hturn with
      | @advance _ _ first _ _ _ _ _ _ _ _ _ =>
        obtain rfl | hmem := List.mem_cons.1 hmem
        · exact hl first List.mem_cons_self
        · exact hl task (List.mem_cons_of_mem _ hmem)
      | finish _ _ => exact hl task (List.mem_cons_of_mem _ hmem)
      | leave => exact hl task hmem
  obtain ⟨worker, stage, queue, board, env, hget, hturn, rfl⟩ := exists_turn hplain hcalm hstep
  refine ⟨hcalm.kept, ?_, hheard, ?_, ?_⟩
  · intro hopened
    exact ⟨{ worker with stage }, List.mem_set (List.getElem?_eq_some_iff.1 hget).1 _,
      Turn.isOver (s := s) hopened hturn⟩
  · intro other hmem
    obtain hmem | rfl := List.mem_or_eq_of_mem_set hmem
    · exact hcalm.plain other hmem
    · generalize worker.stage = before at hturn
      cases hturn with
      | @finish task _ _ _ _ => cases task.audience <;> rfl
      | _ => rfl
  · intro other hmem
    obtain hmem | rfl := List.mem_or_eq_of_mem_set hmem
    · exact hcalm.free other hmem
    · exact hcalm.free worker (List.mem_of_getElem? hget)

end Worksite

end MarkSweep
