import MarkSweep.Proofs.Pool.Board
import MarkSweep.Proofs.Pool.Progress

namespace MarkSweep

theorem forall₂_set {α γ : Type*} {R : α → γ → Prop} {l₁ : List α} {l₂ : List γ} {a : α}
    {b : γ} (hlists : List.Forall₂ R l₁ l₂) (hnew : R a b) (i : Nat) :
    List.Forall₂ R (l₁.set i a) (l₂.set i b) := by
  induction hlists generalizing i with
  | nil => exact .nil
  | cons hhead htail ih =>
    cases i with
    | zero => exact .cons hnew htail
    | succ i => exact .cons hhead (ih i)

theorem forall₂_getElem? {α γ : Type*} {R : α → γ → Prop} {l : List α} {m : List γ}
    (hlists : List.Forall₂ R l m) (i : Nat) : Option.Rel R l[i]? m[i]? := by
  induction hlists generalizing i with
  | nil => exact .none
  | cons hhead _ ih =>
    cases i with
    | zero => exact .some hhead
    | succ i => exact ih i

private theorem forall₂_modify {α γ : Type} {R : α → γ → Prop} {l₁ : List α} {l₂ : List γ}
    {f : α → α} {g : γ → γ} (hlists : List.Forall₂ R l₁ l₂)
    (hchange : ∀ a b, R a b → R (f a) (g b)) (i : Nat) :
    List.Forall₂ R (l₁.modify i f) (l₂.modify i g) := by
  induction hlists generalizing i with
  | nil => simp only [List.modify_nil, List.Forall₂.nil]
  | cons hhead htail ih =>
    cases i with
    | zero => exact .cons (hchange _ _ hhead) htail
    | succ i => exact .cons hhead (ih i)

variable {β ε ρ : Type}

/-- Numbers of a handle and of a group. -/
structure Numbering where
  handle : Nat
  group : Nat

variable {o₁ o₂ n : Numbering}

/-- Audiences that have the same numbers if these are counted from `o₁` and from `o₂`. -/
inductive Audience.Alike (o₁ o₂ : Numbering) : Audience → Audience → Prop
  | nobody : Alike o₁ o₂ .nobody .nobody
  | handle (k : Nat) : Alike o₁ o₂ (.handle (o₁.handle + k)) (.handle (o₂.handle + k))
  | group (k : Nat) : Alike o₁ o₂ (.group (o₁.group + k)) (.group (o₂.group + k))

/-- Boards on which `n` handles and groups were opened since the numbers were `o₁` and `o₂`, and
show the same. -/
structure Board.Alike (o₁ o₂ n : Numbering) (board₁ board₂ : Board ρ) : Prop where
  nextHandle₁ : board₁.nextHandle = o₁.handle + n.handle
  nextHandle₂ : board₂.nextHandle = o₂.handle + n.handle
  nextGroup₁ : board₁.nextGroup = o₁.group + n.group
  nextGroup₂ : board₂.nextGroup = o₂.group + n.group
  handles : ∀ k < n.handle, board₂.handles[o₂.handle + k]? = board₁.handles[o₁.handle + k]?
  groups : ∀ k < n.group, board₂.groups[o₂.group + k]? = board₁.groups[o₁.group + k]?

namespace Board.Alike

variable {board₁ board₂ : Board ρ} {audience₁ audience₂ : Audience}

theorem tell (hboard : Board.Alike o₁ o₂ n board₁ board₂) (k : Nat) (delivery : Delivery ρ) :
    Board.Alike o₁ o₂ n (board₁.tell (o₁.handle + k) delivery)
      (board₂.tell (o₂.handle + k) delivery) := by
  refine { hboard with handles := ?_ }
  intro j hj
  simp only [Board.getElem?_tell, Nat.add_left_cancel_iff]
  by_cases hsame : k = j
  · rw [if_pos hsame, if_pos hsame, hsame, hboard.handles j hj]
  · rw [if_neg hsame, if_neg hsame, hboard.handles j hj]

theorem onGroup (hboard : Board.Alike o₁ o₂ n board₁ board₂) (k : Nat) (f : Group → Group) :
    Board.Alike o₁ o₂ n (board₁.onGroup (o₁.group + k) f)
      (board₂.onGroup (o₂.group + k) f) := by
  refine { hboard with groups := ?_ }
  intro j hj
  simp only [Board.getElem?_onGroup, Nat.add_left_cancel_iff]
  by_cases hsame : k = j
  · rw [if_pos hsame, if_pos hsame, hsame, hboard.groups j hj]
  · rw [if_neg hsame, if_neg hsame, hboard.groups j hj]

theorem enlist (hboard : Board.Alike o₁ o₂ n board₁ board₂)
    (haudience : Audience.Alike o₁ o₂ audience₁ audience₂) :
    Board.Alike o₁ o₂ n (board₁.enlist audience₁) (board₂.enlist audience₂) := by
  cases haudience with
  | nobody | handle k => exact hboard
  | group k => exact hboard.onGroup k _

theorem hear (hboard : Board.Alike o₁ o₂ n board₁ board₂)
    (haudience : Audience.Alike o₁ o₂ audience₁ audience₂) (outcome : Outcome ρ) :
    Board.Alike o₁ o₂ n (board₁.hear audience₁ outcome) (board₂.hear audience₂ outcome) := by
  cases haudience with
  | nobody => exact hboard
  | handle k => exact hboard.tell k _
  | group k =>
    cases outcome with
    | value result => exact hboard
    | fault payload => exact hboard.onGroup k _

theorem openHandle (hboard : Board.Alike o₁ o₂ n board₁ board₂) :
    Board.Alike o₁ o₂ { n with handle := n.handle + 1 } board₁.openHandle.2
      board₂.openHandle.2 := by
  refine { hboard with
    nextHandle₁ := congrArg (· + 1) hboard.nextHandle₁
    nextHandle₂ := congrArg (· + 1) hboard.nextHandle₂
    handles := ?_ }
  intro j hj
  replace hj : j < n.handle + 1 := hj
  simp only [Board.getElem?_openHandle, hboard.nextHandle₁, hboard.nextHandle₂,
    Nat.add_left_cancel_iff]
  by_cases hnew : n.handle = j
  · rw [if_pos hnew, if_pos hnew]
  · rw [if_neg hnew, if_neg hnew, hboard.handles j (by omega)]

theorem openGroup (hboard : Board.Alike o₁ o₂ n board₁ board₂) :
    Board.Alike o₁ o₂ { n with group := n.group + 1 } board₁.openGroup.2
      board₂.openGroup.2 := by
  refine { hboard with
    nextGroup₁ := congrArg (· + 1) hboard.nextGroup₁
    nextGroup₂ := congrArg (· + 1) hboard.nextGroup₂
    groups := ?_ }
  intro j hj
  replace hj : j < n.group + 1 := hj
  simp only [Board.getElem?_openGroup, hboard.nextGroup₁, hboard.nextGroup₂,
    Nat.add_left_cancel_iff]
  by_cases hnew : n.group = j
  · rw [if_pos hnew, if_pos hnew]
  · rw [if_neg hnew, if_neg hnew, hboard.groups j (by omega)]

theorem dropHandle (hboard : Board.Alike o₁ o₂ n board₁ board₂) (k : Nat) :
    Board.Alike o₁ o₂ n (board₁.dropHandle (o₁.handle + k))
      (board₂.dropHandle (o₂.handle + k)) := by
  refine { hboard with handles := ?_ }
  intro j hj
  simp only [Board.getElem?_dropHandle, Nat.add_left_cancel_iff, hboard.handles j hj]

theorem dropGroup (hboard : Board.Alike o₁ o₂ n board₁ board₂) (k : Nat) :
    Board.Alike o₁ o₂ n (board₁.dropGroup (o₁.group + k))
      (board₂.dropGroup (o₂.group + k)) := by
  refine { hboard with groups := ?_ }
  intro j hj
  simp only [Board.getElem?_dropGroup, Nat.add_left_cancel_iff, hboard.groups j hj]

end Board.Alike

/-- Tasks that do the same for the same audience. -/
structure Task.Alike (o₁ o₂ : Numbering) (task₁ task₂ : Task β) : Prop where
  audience : Audience.Alike o₁ o₂ task₁.audience task₂.audience
  body : task₂.body = task₁.body

/-- Stages of workers that do the same, except that only one of them may be draining. -/
inductive Stage.Alike (o₁ o₂ : Numbering) : Stage β → Stage β → Prop
  | awake {draining₁ draining₂ : Bool} : Alike o₁ o₂ (.awake draining₁) (.awake draining₂)
  | running {task₁ task₂ : Task β} (htask : Task.Alike o₁ o₂ task₁ task₂) :
      Alike o₁ o₂ (.running task₁) (.running task₂)
  | leaving (k : Nat) : Alike o₁ o₂ (.leaving (o₁.group + k)) (.leaving (o₂.group + k))
  | parked : Alike o₁ o₂ .parked .parked
  | ended {stage₁ stage₂ : Stage β} (hover₁ : stage₁.isOver = true)
      (hover₂ : stage₂.isOver = true) : Alike o₁ o₂ stage₁ stage₂

theorem Stage.isParked_of_isOver {stage : Stage β} (hover : stage.isOver = true) :
    stage.isParked = false := by
  cases stage with
  | parked => cases hover
  | _ => rfl

namespace Stage.Alike

variable {stage₁ stage₂ : Stage β}

theorem after {audience₁ audience₂ : Audience}
    (haudience : Audience.Alike o₁ o₂ audience₁ audience₂) :
    Stage.Alike o₁ o₂ (audience₁.after : Stage β) audience₂.after := by
  cases haudience with
  | nobody | handle k => exact .awake
  | group k => exact .leaving k

theorem exists_awake {draining : Bool} (hstage : Stage.Alike o₁ o₂ (.awake draining) stage₂) :
    ∃ draining₂, stage₂ = .awake draining₂ := by
  cases hstage with
  | awake => exact ⟨_, rfl⟩
  | ended hover _ => cases hover

theorem exists_running {task : Task β} (hstage : Stage.Alike o₁ o₂ (.running task) stage₂) :
    ∃ task₂, stage₂ = .running task₂ ∧ Task.Alike o₁ o₂ task task₂ := by
  cases hstage with
  | running htask => exact ⟨_, rfl, htask⟩
  | ended hover _ => cases hover

theorem isParked (hstage : Stage.Alike o₁ o₂ stage₁ stage₂) :
    stage₂.isParked = stage₁.isParked := by
  cases hstage with
  | ended hover₁ hover₂ => rw [isParked_of_isOver hover₁, isParked_of_isOver hover₂]
  | _ => rfl

end Stage.Alike

/-- Workers whose stages are alike. -/
def Worker.Alike (o₁ o₂ : Numbering) (worker₁ worker₂ : Worker β) : Prop :=
  Stage.Alike o₁ o₂ worker₁.stage worker₂.stage

theorem Worker.Alike.woken {worker₁ worker₂ : Worker β}
    (hworker : Worker.Alike o₁ o₂ worker₁ worker₂) :
    Worker.Alike o₁ o₂ worker₁.woken worker₂.woken := by
  obtain ⟨stage₁, thread₁⟩ := worker₁
  obtain ⟨stage₂, thread₂⟩ := worker₂
  cases hworker with
  | running htask => exact .running htask
  | awake | parked => exact .awake
  | leaving k => exact .leaving k
  | ended hover₁ hover₂ =>
    replace hover₁ : stage₁.isOver = true := hover₁
    replace hover₂ : stage₂.isOver = true := hover₂
    refine .ended ?_ ?_
    · simp only [Worker.woken, Stage.isParked_of_isOver hover₁, Bool.false_eq_true, if_false,
        hover₁]
    · simp only [Worker.woken, Stage.isParked_of_isOver hover₂, Bool.false_eq_true, if_false,
        hover₂]

namespace Pool

/-- A calm pool whose workers are called to work. -/
structure Working (pool : Pool β ρ) : Prop where
  calm : pool.Calm
  opened : pool.shutDown = false
  enabled : pool.workEnabled = true

/-- Pools at work that do the same. -/
structure Alike (o₁ o₂ n : Numbering) (pool₁ pool₂ : Pool β ρ) : Prop where
  working₁ : pool₁.Working
  working₂ : pool₂.Working
  queue : List.Forall₂ (Task.Alike o₁ o₂) pool₁.queue.toList pool₂.queue.toList
  workers : List.Forall₂ (Worker.Alike o₁ o₂) pool₁.workers pool₂.workers
  board : Board.Alike o₁ o₂ n pool₁.board pool₂.board

/-- A worker that has nothing to do looks at the queue once it is woken, unless it is over. -/
private theorem woken_of_rest {worker : Worker β} (hplain : worker.stage.isPlain = true)
    (htask : worker.stage.task? = none) (hgroup : worker.stage.group? = none) :
    worker.stage.isOver = true ∧ worker.woken.stage.isOver = true ∨
      worker.stage.isOver = false ∧ ∃ draining, worker.woken.stage = .awake draining := by
  obtain ⟨stage, thread⟩ := worker
  cases stage with
  | awake draining => exact .inr ⟨rfl, draining, rfl⟩
  | parked => exact .inr ⟨rfl, false, rfl⟩
  | exited | dead => exact .inl ⟨rfl, rfl⟩
  | running task => cases htask
  | leaving group => cases hgroup
  | signalling task | announcing task | closing last closing task => cases hplain

/-- Two pools in which the same workers have ended and nothing is left to do work alike once their
workers are called to work. -/
theorem alike_wakeAll {pool₁ pool₂ : Pool β ρ} {ended : List Bool} (hcalm₁ : pool₁.Calm)
    (hcalm₂ : pool₂.Calm) (hable₁ : pool₁.Able ended) (hable₂ : pool₂.Able ended)
    (hrest₁ : pool₁.inFlight = [] ∧ pool₁.places = [])
    (hrest₂ : pool₂.inFlight = [] ∧ pool₂.places = []) :
    Pool.Alike ⟨pool₁.board.nextHandle, pool₁.board.nextGroup⟩
      ⟨pool₂.board.nextHandle, pool₂.board.nextGroup⟩ ⟨0, 0⟩ pool₁.wakeAll pool₂.wakeAll := by
  have hworking : ∀ {pool : Pool β ρ}, pool.Calm → pool.Able ended → pool.wakeAll.Working :=
    fun {pool} hcalm hable =>
      ⟨(stirred_wakeAll pool).calm (fun hshut => hshut) hcalm, hable.opened, hable.enabled⟩
  have hwoken : ∀ {pool : Pool β ρ}, pool.Calm → pool.inFlight = [] ∧ pool.places = [] →
      ∀ worker ∈ pool.workers, worker.stage.isOver = true ∧ worker.woken.stage.isOver = true ∨
        worker.stage.isOver = false ∧ ∃ draining, worker.woken.stage = .awake draining := by
    intro pool hcalm hrest worker hmem
    refine woken_of_rest (hcalm.plain worker hmem) ?_ ?_
    · exact List.filterMap_eq_nil_iff.1 (List.append_eq_nil_iff.1 hrest.1).2 worker hmem
    · exact List.filterMap_eq_nil_iff.1 hrest.2 worker hmem
  refine ⟨hworking hcalm₁ hable₁, hworking hcalm₂ hable₂, ?_, ?_, ⟨rfl, rfl, rfl, rfl, ?_, ?_⟩⟩
  · have hqueue₁ : pool₁.queue.toList = [] := (List.append_eq_nil_iff.1 hrest₁.1).1
    have hqueue₂ : pool₂.queue.toList = [] := (List.append_eq_nil_iff.1 hrest₂.1).1
    simp only [wakeAll, hqueue₁, hqueue₂, List.Forall₂.nil]
  · have hover : pool₁.workers.map (·.stage.isOver) = pool₂.workers.map (·.stage.isOver) :=
      hable₁.crew.trans hable₂.crew.symm
    have hlength := congrArg List.length hover
    simp only [List.length_map] at hlength
    simp only [wakeAll, List.forall₂_map_left_iff, List.forall₂_map_right_iff]
    refine List.forall₂_iff_get.2 ⟨hlength, fun i hlt₁ hlt₂ => ?_⟩
    have hsame : pool₁.workers[i].stage.isOver = pool₂.workers[i].stage.isOver := by
      have hget := congrArg (·[i]?) hover
      simpa only [List.getElem?_map, List.getElem?_eq_getElem hlt₁, List.getElem?_eq_getElem hlt₂,
        Option.map_some, Option.some.injEq] using hget
    simp only [List.get_eq_getElem, Worker.Alike]
    rcases hwoken hcalm₁ hrest₁ _ (List.getElem_mem hlt₁) with
      ⟨hover₁, hwoken₁⟩ | ⟨hlive₁, draining₁, hwoken₁⟩
    · rcases hwoken hcalm₂ hrest₂ _ (List.getElem_mem hlt₂) with
        ⟨_, hwoken₂⟩ | ⟨hlive₂, _, _⟩
      · exact .ended hwoken₁ hwoken₂
      · rw [hsame, hlive₂] at hover₁
        cases hover₁
    · rcases hwoken hcalm₂ hrest₂ _ (List.getElem_mem hlt₂) with
        ⟨hover₂, _⟩ | ⟨_, draining₂, hwoken₂⟩
      · rw [hsame, hover₂] at hlive₁
        cases hlive₁
      · rw [hwoken₁, hwoken₂]
        exact .awake
  · intro k hk
    exact absurd hk (Nat.not_lt_zero k)
  · intro k hk
    exact absurd hk (Nat.not_lt_zero k)

/-- What a pool shows on its board does not concern its workers. -/
theorem Working.setBoard {pool : Pool β ρ} (hworking : pool.Working) (board : Board ρ) :
    Working { pool with board } :=
  ⟨hworking.calm.setBoard board, hworking.opened, hworking.enabled⟩

/-- A pool at work accepts every task. -/
theorem Working.offer? {pool : Pool β ρ} (hworking : pool.Working) (task : Task β) :
    pool.offer? task = some (pool.accept task) := by
  rw [offer?_eq, hworking.opened, if_neg Bool.false_ne_true]

theorem Working.accept {pool : Pool β ρ} {task : Task β} (hworking : pool.Working)
    (hheard : task.audience ≠ .nobody) : (pool.accept task).Working :=
  ⟨hworking.calm.accept hheard, hworking.opened, hworking.enabled⟩

theorem Working.wakeOne {pool : Pool β ρ} (hworking : pool.Working) (choice : Choice) :
    (pool.wakeOne choice).Working := by
  have hflags : (pool.wakeOne choice).shutDown = pool.shutDown ∧
      (pool.wakeOne choice).workEnabled = pool.workEnabled := by
    unfold Pool.wakeOne
    simp only
    split <;> exact ⟨rfl, rfl⟩
  refine ⟨(stirred_wakeOne pool choice).calm ?_ hworking.calm, hflags.1.trans hworking.opened,
    hflags.2.trans hworking.enabled⟩
  intro hshut
  exact hflags.1.trans hshut

namespace Alike

variable {pool₁ pool₂ : Pool β ρ}

/-- The same workers of both pools wait to be woken. -/
theorem parkedWorkers (halike : Pool.Alike o₁ o₂ n pool₁ pool₂) :
    pool₂.parkedWorkers = pool₁.parkedWorkers := by
  have hlength := halike.workers.length_eq
  unfold Pool.parkedWorkers
  rw [← hlength]
  refine List.filter_congr fun i hi => ?_
  have hlt := List.mem_range.1 hi
  have hlt' : i < pool₂.workers.length := hlength ▸ hlt
  have hworker := halike.workers.get hlt hlt'
  rw [List.getElem?_eq_getElem hlt, List.getElem?_eq_getElem hlt']
  exact Stage.Alike.isParked hworker

theorem wakeOne (halike : Pool.Alike o₁ o₂ n pool₁ pool₂) (choice : Choice) :
    Pool.Alike o₁ o₂ n (pool₁.wakeOne choice) (pool₂.wakeOne choice) := by
  have hworking₁ := halike.working₁.wakeOne choice
  have hworking₂ := halike.working₂.wakeOne choice
  unfold Pool.wakeOne at hworking₁ hworking₂ ⊢
  rw [halike.parkedWorkers] at hworking₂ ⊢
  simp only at hworking₁ hworking₂ ⊢
  cases hparked : pool₁.parkedWorkers[choice % pool₁.parkedWorkers.length]? with
  | none => exact halike
  | some i =>
    rw [hparked] at hworking₁ hworking₂
    refine ⟨hworking₁, hworking₂, halike.queue, ?_, halike.board⟩
    exact forall₂_modify halike.workers (fun _ _ hworker => hworker.woken) i

/-- Both pools accept a task, behind all others. -/
theorem offer? {task₁ task₂ : Task β} (halike : Pool.Alike o₁ o₂ n pool₁ pool₂)
    (htask : Task.Alike o₁ o₂ task₁ task₂) (hheard₁ : task₁.audience ≠ .nobody)
    (hheard₂ : task₂.audience ≠ .nobody) :
    ∃ after₁ after₂, pool₁.offer? task₁ = some after₁ ∧ pool₂.offer? task₂ = some after₂ ∧
      Pool.Alike o₁ o₂ n after₁ after₂ := by
  refine ⟨pool₁.accept task₁, pool₂.accept task₂, halike.working₁.offer? task₁,
    halike.working₂.offer? task₂, halike.working₁.accept hheard₁, halike.working₂.accept hheard₂,
    ?_, halike.workers, halike.board.enlist htask.audience⟩
  simp only [accept, Fifo.toList_push]
  exact List.rel_append halike.queue (.cons htask .nil)

end Alike

end Pool

/-- Bodies that go on in the same way whichever worker runs them. -/
def Body.IsBlind (B : Body β ε ρ) : Prop :=
  ∀ name name' thread thread' env body, thread.held = [] → thread'.held = [] →
    B.step name' thread' env body = B.step name thread env body

namespace Worksite

variable {B : Body β ε ρ} {s s' s₁ s₂ s₁' : Worksite β ε ρ} {choice : Choice} {i : Nat}
  {worker : Worker β} {before₁ before₂ after₁ stage : Stage β} {thread₁ thread₂ : Thread}
  {queue queue₁ : Fifo (Task β)} {board board₁ : Board ρ} {env : ε}

/-- Workers that are called to work remain so. -/
theorem workerStep_working (hplain : B.IsPlain) (hworking : s.pool.Working)
    (hstep : s.workerStep B choice i = some s') : s'.pool.Working := by
  obtain ⟨henabled, hshut⟩ := workerStep_flags hplain hworking.calm hstep
  exact ⟨workerStep_calm hplain hworking.calm hstep, hshut.trans hworking.opened,
    henabled.trans hworking.enabled⟩

/-- Whatever a worker can do in a pool at work it does, up to how its queue is kept. -/
theorem exists_workerStep_of_turn (hblind : B.IsBlind) (hworking : s.pool.Working)
    (hget : s.pool.workers[i]? = some worker)
    (hturn : Turn B s worker.thread worker.stage stage queue board env) (choice : Choice) :
    ∃ queue' : Fifo (Task β), queue'.toList = queue.toList ∧
      s.workerStep B choice i = some ⟨{ s.pool with
        queue := queue', board, workers := s.pool.workers.set i { worker with stage } }, env⟩ := by
  have hfree := hworking.calm.free worker (List.mem_of_getElem? hget)
  unfold workerStep
  rw [hget]
  simp only
  generalize hbefore : worker.stage = before at hturn
  cases hturn with
  | @take draining task queue hpop =>
    simp only [Pool.look, hworking.enabled, Bool.true_or, if_true]
    cases htaken : s.pool.queue.pop? with
    | none =>
      rw [Fifo.pop?_eq_none_iff.1 htaken] at hpop
      cases hpop
    | some taken =>
      obtain ⟨task', queue'⟩ := taken
      rw [Fifo.toList_of_pop? htaken] at hpop
      obtain ⟨rfl, hrest⟩ := List.cons.inj hpop
      exact ⟨queue', hrest, rfl⟩
  | park hempty =>
    have hnone := Fifo.pop?_eq_none_iff.2 (hempty hworking.enabled)
    have hlook : ∀ draining, s.pool.look i worker draining = s.pool.setStage i worker .parked := by
      intro draining
      simp only [Pool.look, hworking.enabled, Bool.true_or, if_true, hnone, hworking.opened,
        Bool.false_eq_true, if_false]
    simp only [hlook]
    exact ⟨s.pool.queue, rfl, rfl⟩
  | exit hshut =>
    rw [hworking.opened] at hshut
    cases hshut
  | @advance task name env rest hstep =>
    have hstep' := hblind name (s.pool.workerName i) worker.thread worker.thread s.env task.body
      hfree hfree
    simp only [hstep', hstep]
    exact ⟨s.pool.queue, rfl, rfl⟩
  | @finish task name env outcome hstep =>
    have hstep' := hblind name (s.pool.workerName i) worker.thread worker.thread s.env task.body
      hfree hfree
    simp only [hstep', hstep]
    have hheard := hworking.calm.heard task (Pool.mem_inFlight_of_running hget hbefore)
    refine ⟨s.pool.queue, rfl, ?_⟩
    obtain ⟨audience, body, owners⟩ := task
    cases audience with
    | nobody => exact absurd rfl hheard
    | handle id => rfl
    | group id => cases outcome <;> rfl
  | leave => exact ⟨s.pool.queue, rfl, rfl⟩

/-- What a worker can do in a pool it can do in one that is alike. -/
theorem Turn.exists_alike (hblind : B.IsBlind) (hthread₁ : thread₁.held = [])
    (hthread₂ : thread₂.held = []) (halike : Pool.Alike o₁ o₂ n s₁.pool s₂.pool)
    (henv : s₂.env = s₁.env) (hstage : Stage.Alike o₁ o₂ before₁ before₂)
    (hturn : Turn B s₁ thread₁ before₁ after₁ queue₁ board₁ env) :
    ∃ after₂ queue₂ board₂, Turn B s₂ thread₂ before₂ after₂ queue₂ board₂ env ∧
      Stage.Alike o₁ o₂ after₁ after₂ ∧
      List.Forall₂ (Task.Alike o₁ o₂) queue₁.toList queue₂.toList ∧
      Board.Alike o₁ o₂ n board₁ board₂ := by
  cases hturn with
  | @take draining task queue hpop =>
    obtain ⟨draining₂, rfl⟩ := hstage.exists_awake
    have hqueue := halike.queue
    rw [hpop] at hqueue
    obtain ⟨task₂, rest, htask, hrest, hpop₂⟩ := List.forall₂_cons_left_iff.1 hqueue
    refine ⟨.running task₂, ⟨rest, []⟩, s₂.pool.board, henv ▸ .take ?_, .running htask, ?_,
      halike.board⟩
    · rw [hpop₂]
      simp only [Fifo.toList, List.reverse_nil, List.append_nil]
    · simpa only [Fifo.toList, List.reverse_nil, List.append_nil] using hrest
  | park hempty =>
    obtain ⟨draining₂, rfl⟩ := hstage.exists_awake
    refine ⟨.parked, s₂.pool.queue, s₂.pool.board, henv ▸ .park fun _ => ?_, .parked, halike.queue,
      halike.board⟩
    have hqueue := halike.queue
    rw [hempty halike.working₁.enabled] at hqueue
    exact List.forall₂_nil_left_iff.1 hqueue
  | exit hshut =>
    rw [halike.working₁.opened] at hshut
    cases hshut
  | @advance task name env rest hstep =>
    obtain ⟨task₂, rfl, htask⟩ := hstage.exists_running
    have hstep₂ : B.step name thread₂ s₂.env task₂.body = .next env rest := by
      rw [hblind name name thread₁ thread₂ s₂.env task₂.body hthread₁ hthread₂, henv, htask.body]
      exact hstep
    exact ⟨.running { task₂ with body := rest }, s₂.pool.queue, s₂.pool.board, .advance hstep₂,
      .running ⟨htask.audience, rfl⟩, halike.queue, halike.board⟩
  | @finish task name env outcome hstep =>
    obtain ⟨task₂, rfl, htask⟩ := hstage.exists_running
    have hstep₂ : B.step name thread₂ s₂.env task₂.body = .finish env outcome := by
      rw [hblind name name thread₁ thread₂ s₂.env task₂.body hthread₁ hthread₂, henv, htask.body]
      exact hstep
    exact ⟨task₂.audience.after, s₂.pool.queue, s₂.pool.board.hear task₂.audience outcome,
      .finish hstep₂, .after htask.audience, halike.queue, halike.board.hear htask.audience outcome⟩
  | leave =>
    cases hstage with
    | ended hover _ => cases hover
    | leaving k =>
      exact ⟨.awake true, s₂.pool.queue, _, henv ▸ .leave, .awake, halike.queue,
        halike.board.onGroup k _⟩

/-- Pools at work that are alike take the same steps. -/
theorem exists_workerStep_of_alike (hplain : B.IsPlain) (hblind : B.IsBlind)
    (halike : Pool.Alike o₁ o₂ n s₁.pool s₂.pool) (henv : s₂.env = s₁.env)
    (hstep : s₁.workerStep B choice i = some s₁') :
    ∃ s₂', s₂.workerStep B choice i = some s₂' ∧ Pool.Alike o₁ o₂ n s₁'.pool s₂'.pool ∧
      s₂'.env = s₁'.env := by
  have hworking₁ := workerStep_working hplain halike.working₁ hstep
  obtain ⟨worker₁, after₁, queue₁, board₁, env, hget₁, hturn₁, rfl⟩ :=
    exists_turn hplain halike.working₁.calm hstep
  obtain ⟨hlt₁, hworker₁⟩ := List.getElem?_eq_some_iff.1 hget₁
  have hlt₂ : i < s₂.pool.workers.length := halike.workers.length_eq ▸ hlt₁
  have hget₂ := List.getElem?_eq_getElem hlt₂
  have hstage : Stage.Alike o₁ o₂ worker₁.stage (s₂.pool.workers[i]).stage := by
    rw [← hworker₁]
    exact halike.workers.get hlt₁ hlt₂
  obtain ⟨after₂, queue₂, board₂, hturn₂, hafter, hqueue, hboard⟩ := hturn₁.exists_alike hblind
    (halike.working₁.calm.free _ (List.mem_of_getElem? hget₁))
    (halike.working₂.calm.free _ (List.mem_of_getElem? hget₂)) halike henv hstage
  obtain ⟨queue₂', hqueue', hstep₂⟩ :=
    exists_workerStep_of_turn hblind halike.working₂ hget₂ hturn₂ choice
  have hworker : Worker.Alike o₁ o₂ { worker₁ with stage := after₁ }
      { s₂.pool.workers[i] with stage := after₂ } := hafter
  refine ⟨_, hstep₂, ⟨hworking₁, workerStep_working hplain halike.working₂ hstep₂, ?_,
    forall₂_set halike.workers hworker i, hboard⟩, rfl⟩
  rw [hqueue']
  exact hqueue

end Worksite

end MarkSweep
