import MarkSweep.Proofs.Company.Tidy
import MarkSweep.Proofs.Pool.Board
import MarkSweep.Proofs.Pool.Chronicle
import MarkSweep.Proofs.Pool.Likeness

namespace MarkSweep

variable {β ε ρ α : Type} {start : Numbering}

namespace Board

/-- Since the numbers were `start` nobody has heard of a task that asked for a lock out of order. -/
structure InOrder (start : Numbering) (board : Board ρ) : Prop where
  handle_le : start.handle ≤ board.nextHandle
  group_le : start.group ≤ board.nextGroup
  handles : ∀ (id : HandleId) (payload : Payload), start.handle ≤ id →
    board.handles[id]? = some (.delivered (.fault payload)) → ¬TellsDisorder payload.message
  groups : ∀ (id : GroupId) (group : Group), start.group ≤ id → board.groups[id]? = some group →
    ∀ message ∈ group.faults, ¬TellsDisorder message

/-- The numbers that the board gives next. -/
def numbering (board : Board ρ) : Numbering := ⟨board.nextHandle, board.nextGroup⟩

/-- There is nothing under numbers that were not given yet. -/
structure IsFresh (board : Board ρ) : Prop where
  handles : ∀ id, board.nextHandle ≤ id → board.handles[id]? = none
  groups : ∀ id, board.nextGroup ≤ id → board.groups[id]? = none

variable {board : Board ρ}

/-- A fresh board is in order from now on. -/
theorem inOrder_numbering (h : board.IsFresh) : board.InOrder board.numbering where
  handle_le := Nat.le_refl _
  group_le := Nat.le_refl _
  handles id _ hid hget := nomatch (h.handles id hid).symm.trans hget
  groups id _ hid hget := nomatch (h.groups id hid).symm.trans hget

theorem InOrder.openHandle (h : board.InOrder start) : board.openHandle.2.InOrder start := by
  refine { h with handle_le := Nat.le_succ_of_le h.handle_le, handles := ?_ }
  intro id payload hid hget
  rw [getElem?_openHandle] at hget
  split at hget
  · cases hget
  · exact h.handles id payload hid hget

/-- A handle may be told of everything but disorder. -/
theorem InOrder.tell (h : board.InOrder start) (id : HandleId) {delivery : Delivery ρ}
    (hdelivery : ∀ payload, delivery = .delivered (.fault payload) →
      ¬TellsDisorder payload.message) : (board.tell id delivery).InOrder start := by
  refine { h with handles := ?_ }
  intro other payload hother hget
  rw [getElem?_tell] at hget
  split at hget
  · obtain ⟨_, -, rfl⟩ := Option.map_eq_some_iff.1 hget
    exact hdelivery payload rfl
  · exact h.handles other payload hother hget

theorem InOrder.dropHandle (h : board.InOrder start) (id : HandleId) :
    (board.dropHandle id).InOrder start := by
  refine { h with handles := ?_ }
  intro other payload hother hget
  rw [getElem?_dropHandle] at hget
  split at hget
  · cases hget
  · exact h.handles other payload hother hget

theorem InOrder.openGroup (h : board.InOrder start) : board.openGroup.2.InOrder start := by
  refine { h with group_le := Nat.le_succ_of_le h.group_le, groups := ?_ }
  intro id group hid hget message hmem
  rw [getElem?_openGroup] at hget
  split at hget
  · cases hget
    cases hmem
  · exact h.groups id group hid hget message hmem

theorem InOrder.onGroup (h : board.InOrder start) (id : GroupId) {f : Group → Group}
    (hf : ∀ group, ∀ message ∈ (f group).faults,
      message ∈ group.faults ∨ ¬TellsDisorder message) : (board.onGroup id f).InOrder start := by
  refine { h with groups := ?_ }
  intro other group hother hget message hmem
  rw [getElem?_onGroup] at hget
  split at hget
  · next heq =>
    obtain ⟨before, hbefore, rfl⟩ := Option.map_eq_some_iff.1 hget
    obtain hmem | hclean := hf before message hmem
    · exact h.groups id before (heq ▸ hother) hbefore message hmem
    · exact hclean
  · exact h.groups other group hother hget message hmem

theorem InOrder.dropGroup (h : board.InOrder start) (id : GroupId) :
    (board.dropGroup id).InOrder start := by
  refine { h with groups := ?_ }
  intro other group hother hget message hmem
  rw [getElem?_dropGroup] at hget
  split at hget
  · cases hget
  · exact h.groups other group hother hget message hmem

theorem InOrder.recordFault (h : board.InOrder start) (id : GroupId) {message : String}
    (hmessage : ¬TellsDisorder message) : (board.recordFault id message).InOrder start := by
  refine h.onGroup id ?_
  intro group other hmem
  obtain hmem | hmem := List.mem_append.1 hmem
  · exact .inl hmem
  · exact .inr (List.mem_singleton.1 hmem ▸ hmessage)

theorem InOrder.leaveGroup (h : board.InOrder start) (id : GroupId) :
    (board.leaveGroup id).InOrder start :=
  h.onGroup id fun _ _ hmem => .inl hmem

theorem InOrder.enlist (h : board.InOrder start) (audience : Audience) :
    (board.enlist audience).InOrder start := by
  cases audience with
  | group id => exact h.onGroup id fun _ _ hmem => .inl hmem
  | nobody | handle _ => exact h

theorem InOrder.refuse (h : board.InOrder start) (audience : Audience) :
    (board.refuse audience).InOrder start := by
  cases audience with
  | handle id => exact h.tell id nofun
  | nobody | group _ => exact h

theorem InOrder.dismiss (h : board.InOrder start) (audience : Audience) :
    (board.dismiss audience).InOrder start := by
  cases audience with
  | handle id => exact h.tell id nofun
  | group id => exact h.leaveGroup id
  | nobody => exact h

end Board

namespace Pool

/-- Moreover, the workers hold no lock level. -/
structure InOrder (start : Numbering) (pool : Pool β ρ) : Prop where
  free : ∀ worker ∈ pool.workers, worker.thread.held = []
  board : pool.board.InOrder start

variable {pool pool' p : Pool β ρ} {i : Nat} {worker : Worker β}

/-- Nothing about the order concerns the queue and the flags. -/
theorem InOrder.congr (h : pool.InOrder start) (hworkers : p.workers = pool.workers)
    (hboard : p.board = pool.board) : p.InOrder start :=
  ⟨hworkers ▸ h.free, hboard ▸ h.board⟩

theorem InOrder.setBoard (h : pool.InOrder start) {board : Board ρ} (hboard : board.InOrder start) :
    InOrder start { pool with board } := ⟨h.free, hboard⟩

theorem InOrder.setStage (h : pool.InOrder start) (i : Nat) (hfree : worker.thread.held = [])
    (stage : Stage β) : (pool.setStage i worker stage).InOrder start := by
  refine ⟨?_, h.board⟩
  intro other hmem
  obtain hmem | rfl := List.mem_or_eq_of_mem_set hmem
  · exact h.free other hmem
  · exact hfree

theorem InOrder.stirred (h : pool.InOrder start) (hstirred : pool.Stirred pool') :
    pool'.InOrder start := by
  refine ⟨?_, hstirred.board ▸ h.board⟩
  intro worker' hmem
  have hheld : worker'.thread.held ∈ pool.workers.map (·.thread.held) := by
    rw [← hstirred.held]
    exact List.mem_map_of_mem hmem
  obtain ⟨worker, hbefore, heq⟩ := List.mem_map.1 hheld
  rw [← heq]
  exact h.free worker hbefore

theorem InOrder.collapse (h : pool.InOrder start) : pool.collapse.InOrder start := by
  unfold Pool.collapse
  split
  · refine ⟨h.free, ?_⟩
    change (pool.queue.toList.foldl _ pool.board).InOrder start
    generalize pool.queue.toList = queue
    have hboard := h.board
    generalize pool.board = board at hboard ⊢
    induction queue generalizing board with
    | nil => exact hboard
    | cons task queue ih => exact ih _ (hboard.dismiss task.audience)
  · exact h

theorem InOrder.release (h : pool.InOrder start) : pool.release.InOrder start :=
  (h.congr (p := { pool with released := true }) rfl rfl).collapse

section Worker

variable (h : pool.InOrder start) (hfree : worker.thread.held = [])

include h hfree

theorem InOrder.look (i : Nat) (draining : Bool) : (pool.look i worker draining).InOrder start := by
  unfold Pool.look
  split
  · next queue _ => exact (h.congr (p := { pool with queue }) rfl rfl).setStage i hfree _
  · split
    · exact (h.setStage i hfree _).collapse
    · exact h.setStage i hfree _

/-- A task may end with everything but disorder. -/
theorem InOrder.conclude (i : Nat) (audience : Audience) {outcome : Outcome ρ}
    (houtcome : ∀ payload, outcome = .fault payload → ¬TellsDisorder payload.message) :
    (pool.conclude i worker audience outcome).InOrder start := by
  cases audience with
  | nobody =>
    cases outcome with
    | value _ => exact h.setStage i hfree _
    | fault _ => exact (h.setStage i hfree _).collapse
  | handle id =>
    refine (h.setBoard (h.board.tell id ?_)).setStage i hfree _
    intro payload heq
    cases heq
    exact houtcome payload rfl
  | group id =>
    cases outcome with
    | value _ => exact h.setStage i hfree _
    | fault payload =>
      exact (h.setBoard (h.board.recordFault id (houtcome payload rfl))).setStage i hfree _

theorem InOrder.enqueueFrom (i : Nat) (queued accepted refused : Task β) :
    (pool.enqueueFrom i worker queued accepted refused).InOrder start := by
  unfold Pool.enqueueFrom
  split
  · next pool' hoffer =>
    unfold offer? at hoffer
    split at hoffer
    · cases hoffer
    · cases hoffer
      have haccept : (pool.accept queued).InOrder start := ⟨h.free, h.board.enlist queued.audience⟩
      split
      · exact haccept.setStage i hfree _
      · exact haccept.setStage i hfree _
  · exact (h.setBoard (h.board.refuse queued.audience)).setStage i hfree _

theorem InOrder.askFrom (i : Nat) (task : Task β) (rest : Reply → β) (request : Request β) :
    (pool.askFrom i worker task rest request).InOrder start := by
  cases request with
  | execute body owners | spawnMember group body owners => exact h.enqueueFrom hfree i _ _ _
  | submit body owners => exact (h.setBoard h.board.openHandle).enqueueFrom hfree i _ _ _
  | signalWork =>
    exact (h.congr (p := pool.enableWork) rfl rfl).setStage i hfree _
  | signalWait =>
    exact (h.congr (p := pool.disableWork) rfl rfl).setStage i hfree _
  | finalize => exact h.setStage i hfree _

theorem InOrder.resumeFrom (i : Nat) (last : Bool) (task : Task β) :
    (pool.resumeFrom i worker last task).InOrder start := by
  unfold Pool.resumeFrom
  split
  · exact (h.setStage i hfree _).release
  · exact h.setStage i hfree _

theorem InOrder.closeFrom {last : Bool} {task : Task β} {closing : Closing}
    (hclose : pool.closeFrom i worker last task closing = some pool') : pool'.InOrder start := by
  have htaken : InOrder start { pool with unjoined := [] } := h.congr rfl rfl
  cases closing with
  | begun =>
    cases hclose
    exact (h.congr (p := pool.beginShutdown) rfl rfl).setStage i hfree _
  | flagged =>
    cases hclose
    exact (h.stirred (stirred_wakeAll pool)).setStage i hfree _
  | announced =>
    simp only [Pool.closeFrom, takeWorkers] at hclose
    cases hleft : pool.unjoined with
    | nil =>
      rw [hleft] at hclose
      cases hclose
      exact htaken.resumeFrom hfree i last task
    | cons j left =>
      rw [hleft] at hclose
      cases hclose
      exact htaken.setStage i hfree _
  | joining left =>
    cases left with
    | nil =>
      cases hclose
      refine h.resumeFrom ?_ i last task
      exact hfree
    | cons j left =>
      simp only [Pool.closeFrom] at hclose
      split at hclose
      · cases hclose
        exact h.setStage i hfree _
      · cases hclose

end Worker

end Pool

/-- A task on a thread that holds no lock level does not ask for one out of order. -/
def Body.IsOrderly (B : Body β ε ρ) : Prop :=
  ∀ name thread env body env' payload, thread.held = [] →
    B.step name thread env body = .finish env' (.fault payload) → ¬TellsDisorder payload.message

/-- A task that takes a step or ends keeps `K`. -/
def Body.Preserves (B : Body β ε ρ) (K : ε → Prop) : Prop :=
  ∀ name thread env body env', K env →
    (∃ rest, B.step name thread env body = .next env' rest) ∨
      (∃ outcome, B.step name thread env body = .finish env' outcome) → K env'

namespace Worksite

variable {B : Body β ε ρ} {K : ε → Prop} {s s' : Worksite β ε ρ} {choice : Choice} {i : Nat}

/-- The pool is in order, and the environment of its tasks satisfies `K`. -/
structure InOrder (start : Numbering) (K : ε → Prop) (s : Worksite β ε ρ) : Prop where
  pool : s.pool.InOrder start
  env : K s.env

/-- Workers keep their pool in order, if tasks on threads that hold nothing do not ask out of
order. -/
theorem workerStep_inOrder (hB : B.IsOrderly) (hK : B.Preserves K) (h : s.InOrder start K)
    (hstep : s.workerStep B choice i = some s') : s'.InOrder start K := by
  refine ⟨?pool, ?env⟩
  case env =>
    obtain henv | ⟨name, thread, body, hmove⟩ := workerStep_env hstep
    · rw [henv]
      exact h.env
    · exact hK name thread s.env body s'.env h.env hmove
  unfold workerStep at hstep
  split at hstep
  · cases hstep
  · next worker hget =>
    have hfree := h.pool.free worker (List.mem_of_getElem? hget)
    split at hstep
    · cases hstep
      exact h.pool.look hfree i _
    · next task hstage =>
      split at hstep
      · cases hstep
        exact h.pool.setStage i hfree _
      · cases hstep
      · cases hstep
        unfold Pool.adoptFrom
        split
        · exact h.pool.setStage i hfree _
        · have hmore : Pool.InOrder start { s.pool with owners := s.pool.owners + 1 } :=
            h.pool.congr rfl rfl
          exact hmore.setStage i hfree _
      · cases hstep
        have hfewer : Pool.InOrder start { s.pool with owners := s.pool.owners - 1 } :=
          h.pool.congr rfl rfl
        simp only [Pool.giveUpFrom]
        split
        · exact hfewer.setStage i hfree _
        · exact hfewer.setStage i hfree _
      · cases hstep
        exact h.pool.askFrom hfree i task _ _
      · next env outcome hmove =>
        cases hstep
        refine h.pool.conclude hfree i task.audience ?_
        rintro payload rfl
        exact hB _ _ _ _ _ payload hfree hmove
    · cases hstep
      exact (h.pool.setStage i hfree _).stirred (Pool.stirred_wakeOne _ choice)
    · cases hstep
      exact (h.pool.stirred (Pool.stirred_wakeAll s.pool)).setStage i hfree _
    · obtain ⟨pool', hclose, rfl⟩ := Option.map_eq_some_iff.1 hstep
      exact h.pool.closeFrom hfree hclose
    · cases hstep
      exact (h.pool.setBoard (h.pool.board.leaveGroup _)).setStage i hfree _
    · cases hstep
    · cases hstep
    · cases hstep

/-- No worker is about to end a task that asked for a lock out of order. -/
theorem outcome?_inOrder (hB : B.IsOrderly) (h : s.pool.InOrder start) {payload : Payload}
    (houtcome : s.outcome? B i = some (.fault payload)) : ¬TellsDisorder payload.message := by
  obtain ⟨worker, task, hget, hstage, env, hmove⟩ := exists_running_of_outcome? houtcome
  exact hB _ _ _ _ _ payload (h.free worker (List.mem_of_getElem? hget)) hmove

end Worksite

/-- An answer does not pass on that a task asked for a lock out of order. -/
def AnswerInOrder (answer : Except Failure α) : Prop :=
  ∀ failure, answer = .error failure → ¬failure.IsDisorder

theorem answerInOrder_ok (a : α) : AnswerInOrder (.ok a : Except Failure α) := nofun

namespace Pool

open Call

variable {K : ε → Prop} {calm : Prop} {V : α → Prop} {held : Held}

/-- A critical section of the queue lock that keeps the pool in order is tidy. -/
theorem tidy_exchange {f : Pool β ρ → α × Pool β ρ}
    (hf : ∀ pool : Pool β ρ, pool.InOrder start → (f pool).2.InOrder start ∧ V (f pool).1) :
    Tidy (Worksite.InOrder start K) calm V held (exchange f : Call (Worksite β ε ρ) α) :=
  tidy_atomic fun s hs => ⟨⟨(hf s.pool hs.pool).1, hs.env⟩, (hf s.pool hs.pool).2⟩

theorem tidy_change {f : Pool β ρ → Pool β ρ}
    (hf : ∀ pool : Pool β ρ, pool.InOrder start → (f pool).InOrder start) :
    Tidy (Worksite.InOrder start K) calm (fun _ => True) held
      (change f : Call (Worksite β ε ρ) Unit) :=
  tidy_update fun s hs => ⟨hf s.pool hs.pool, hs.env⟩

theorem tidy_inspect (f : Pool β ρ → α) :
    Tidy (Worksite.InOrder start K) calm (fun _ => True) held
      (inspect f : Call (Worksite β ε ρ) α) :=
  tidy_read fun _ _ => trivial

theorem tidy_notifyOne :
    Tidy (Worksite.InOrder start K) calm (fun _ => True) held
      (notifyOne : Call (Worksite β ε ρ) Unit) := by
  refine tidy_choose ?_
  intro choice s a s' hs hact
  cases hact
  exact ⟨⟨hs.pool.stirred (stirred_wakeOne s.pool choice), hs.env⟩, trivial⟩

theorem tidy_notifyAll :
    Tidy (Worksite.InOrder start K) calm (fun _ => True) held
      (notifyAll : Call (Worksite β ε ρ) Unit) :=
  tidy_change fun pool h => h.stirred (stirred_wakeAll pool)

theorem tidy_enqueue (task : Task β) :
    Tidy (Worksite.InOrder start K) calm (fun _ => True) held
      (enqueue task : Call (Worksite β ε ρ) Bool) := by
  refine tidy_seq (tidy_exchange ?_) ?_
  · intro pool h
    obtain ⟨-, hoffer⟩ | ⟨-, hoffer⟩ := pool.offer?_cases task
    · rw [hoffer]
      exact ⟨h, trivial⟩
    · rw [hoffer]
      exact ⟨⟨h.free, h.board.enlist task.audience⟩, trivial⟩
  · rintro (_ | _ | _)
    · exact tidy_pure trivial
    · exact tidy_pure trivial
    · exact tidy_seq tidy_notifyOne fun _ => tidy_pure trivial

/-- A handle that is opened now was not opened before. -/
theorem tidy_submit (body : β) (owners : Nat) :
    Tidy (Worksite.InOrder start K) calm (start.handle ≤ ·) held
      (submit body owners : Call (Worksite β ε ρ) HandleId) := by
  refine tidy_bind
    (tidy_exchange fun pool h => ⟨h.setBoard h.board.openHandle, h.board.handle_le⟩) ?_
  intro id hid
  refine tidy_seq (tidy_enqueue _) ?_
  rintro (_ | _)
  · refine tidy_seq (tidy_change fun pool h => ?_) fun _ => tidy_pure hid
    exact h.setBoard (h.board.tell id nofun)
  · exact tidy_pure hid

theorem tidy_newGroup :
    Tidy (Worksite.InOrder start K) calm (start.group ≤ ·) held
      (newGroup : Call (Worksite β ε ρ) GroupId) :=
  tidy_exchange fun _ h => ⟨h.setBoard h.board.openGroup, h.board.group_le⟩

theorem tidy_spawnMember (group : GroupId) (body : β) (owners : Nat) :
    Tidy (Worksite.InOrder start K) calm AnswerInOrder held
      (spawnMember group body owners : Call (Worksite β ε ρ) (Except Failure Unit)) := by
  refine tidy_seq (tidy_enqueue _) ?_
  rintro (_ | _)
  · refine tidy_pure ?_
    rintro failure ⟨⟩
    exact not_false
  · exact tidy_pure (answerInOrder_ok ())

theorem tidy_signalWork :
    Tidy (Worksite.InOrder start K) calm (fun _ => True) held
      (signalWork : Call (Worksite β ε ρ) Unit) :=
  tidy_seq (tidy_change fun _ h => h.congr rfl rfl) fun _ => tidy_notifyAll

theorem tidy_signalWait :
    Tidy (Worksite.InOrder start K) calm (fun _ => True) held
      (signalWait : Call (Worksite β ε ρ) Unit) :=
  tidy_change fun _ h => h.congr rfl rfl

theorem tidy_joinWorker (i : Nat) :
    Tidy (Worksite.InOrder start K) calm (fun _ => True) held
      (joinWorker i : Call (Worksite β ε ρ) Unit) := by
  refine tidy_await ?_
  intro s a s' hs hact
  split at hact
  · cases hact
    exact ⟨hs, trivial⟩
  · cases hact

theorem tidy_finalize :
    Tidy (Worksite.InOrder start K) calm (fun _ => True) held
      (finalize : Call (Worksite β ε ρ) Unit) := by
  have hjoin : ∀ left : List Nat, Tidy (Worksite.InOrder start K) calm (fun _ => True) held
      (left.forM joinWorker : Call (Worksite β ε ρ) PUnit) := by
    intro left
    induction left with
    | nil => exact tidy_pure trivial
    | cons i left ih => exact tidy_seq (tidy_joinWorker i) fun _ => ih
  refine tidy_seq (tidy_change fun _ h => h.congr rfl rfl) fun _ => ?_
  refine tidy_seq tidy_notifyAll fun _ => ?_
  refine tidy_seq (tidy_exchange fun _ h => ⟨h.congr rfl rfl, trivial⟩) fun left => ?_
  split
  · exact tidy_pure trivial
  · refine tidy_seq (hjoin left) fun _ => ?_
    exact tidy_seq (tidy_inspect _) fun _ => tidy_emit

/-- A handle that counts does not tell of disorder. -/
theorem tidy_tryJoin {id : HandleId} (hid : start.handle ≤ id) :
    Tidy (Worksite.InOrder start K) calm AnswerInOrder held
      (tryJoin id : Call (Worksite β ε ρ) (Except Failure ρ)) := by
  refine tidy_bind (W := fun outcome? => ∀ payload, outcome? = some (.fault payload) →
    ¬TellsDisorder payload.message) (tidy_await ?_) ?_
  · intro s outcome? s' hs hact
    have hconsumed : Worksite.InOrder start K
        { s with pool := { s.pool with board := s.pool.board.dropHandle id } } :=
      ⟨hs.pool.setBoard (hs.pool.board.dropHandle id), hs.env⟩
    split at hact
    · next outcome hget =>
      cases hact
      refine ⟨hconsumed, ?_⟩
      rintro payload ⟨⟩
      exact hs.pool.board.handles id payload hid hget
    · cases hact
      exact ⟨hconsumed, nofun⟩
    · cases hact
    · cases hact
  · rintro (_ | result | payload) hclean
    · refine tidy_pure ?_
      rintro failure ⟨⟩
      exact not_false
    · exact tidy_pure (answerInOrder_ok result)
    · refine tidy_pure ?_
      rintro failure ⟨⟩
      exact hclean payload rfl

theorem tidy_waitGroup {id : GroupId} (hid : start.group ≤ id) :
    Tidy (Worksite.InOrder start K) calm AnswerInOrder held
      (waitGroup id : Call (Worksite β ε ρ) (Except Failure Unit)) := by
  refine tidy_await ?_
  intro s answer s' hs hact
  split at hact
  · next group hget =>
    split at hact
    · cases hact
      refine ⟨⟨hs.pool.setBoard (hs.pool.board.dropGroup id), hs.env⟩, ?_⟩
      split
      · next message messages hfaults =>
        rintro failure ⟨⟩
        refine hs.pool.board.groups id group hid hget message ?_
        rw [hfaults]
        exact List.mem_cons_self
      · exact answerInOrder_ok ()
    · cases hact
  · cases hact

theorem tidy_abandonGroup (id : GroupId) :
    Tidy (Worksite.InOrder start K) calm (fun _ => True) held
      (abandonGroup id : Call (Worksite β ε ρ) Unit) :=
  tidy_change fun _ h => h.setBoard (h.board.dropGroup id)

end Pool

end MarkSweep
