import MarkSweep.Pool.Access
import MarkSweep.Proofs.Company.Discipline
import MarkSweep.Proofs.Pool.Board
import MarkSweep.Proofs.Pool.Progress

namespace MarkSweep.Pool

open Call

variable {β ε ρ α : Type}

/-- What a client asks of a pool. -/
inductive Errand (β : Type)
  | submit (body : β) (owners : Nat)
  | execute (body : β) (owners : Nat)
  | spawnMember (group : GroupId) (body : β) (owners : Nat)
  | signalWork
  | signalWait
  | finalize
  | dropOwner
  | newGroup
  | tryJoin (id : HandleId)
  | join (id : HandleId)
  | detach (id : HandleId)
  | waitGroup (id : GroupId)
  | abandonGroup (id : GroupId)
  /-- To make several of these calls, one after another. Which they are is up to the caller; here
  none is left. -/
  | series

/-- What the calls of the errands return. -/
inductive Answer (ρ : Type)
  | done
  | handle (id : HandleId)
  | group (id : GroupId)
  /-- Whether a task was accepted, or what became of the members of a group. -/
  | verdict (answer : Except Failure Unit)
  | outcome (answer : Except Failure ρ)
  | value (result : ρ)

def Errand.call : Errand β → Call (Worksite β ε ρ) (Answer ρ)
  | submit body owners => do return .handle (← Pool.submit body owners)
  | execute body owners => do return .verdict (← Pool.execute body owners)
  | spawnMember group body owners => do return .verdict (← Pool.spawnMember group body owners)
  | signalWork => do Pool.signalWork; return .done
  | signalWait => do Pool.signalWait; return .done
  | finalize => do Pool.finalize; return .done
  | dropOwner => do Pool.dropOwner; return .done
  | newGroup => do return .group (← Pool.newGroup)
  | tryJoin id => do return .outcome (← Pool.tryJoin id)
  | join id => do return .value (← Pool.join id)
  | detach id => do Pool.detach id; return .done
  | waitGroup id => do return .verdict (← Pool.waitGroup id)
  | abandonGroup id => do Pool.abandonGroup id; return .done
  | series => return .done

/-- How far a call is. -/
inductive Standing (ρ : Type)
  /-- Nothing was done yet. -/
  | ready
  /-- The task that is about to be queued has a handle. -/
  | opened (id : HandleId)
  /-- The task was accepted, and a worker has still to be woken for it. -/
  | queued (id? : Option HandleId)
  /-- The task was accepted. -/
  | accepted (id? : Option HandleId)
  /-- The pool did not accept the task. -/
  | refused (id? : Option HandleId)
  /-- The handle of the task has heard that it was not accepted. -/
  | lost (id : HandleId)
  /-- The work flag is set, and every worker has still to be woken. -/
  | enabled
  /-- The pool is being closed. -/
  | closing (closing : Closing)
  /-- Every worker was joined. -/
  | reporting (name : String)
  /-- The pool was closed; the workers were joined, or others have begun to join them. -/
  | closed (joined : Bool)
  | grouped (id : GroupId)
  /-- The handle was consumed; it told how the task ended, or that it was dropped. -/
  | heard (outcome? : Option (Outcome ρ))
  /-- The group was consumed. -/
  | told (answer : Except Failure Unit)
  | finished

namespace Errand

/-- Where a call begins. -/
def start : Errand β → Standing ρ
  | finalize => .closing .begun
  | _ => .ready

/-- The task that a call queues, from where it stands. -/
def task? : Errand β → Standing ρ → Option (Task β)
  | submit body owners, .opened id => some ⟨.handle id, body, owners⟩
  | execute body owners, .ready => some ⟨.nobody, body, owners⟩
  | spawnMember group body owners, .ready => some ⟨.group group, body, owners⟩
  | _, _ => none

/-- Whether a call closes the pool. -/
def closes : Errand β → Bool
  | finalize | dropOwner => true
  | _ => false

end Errand

/-- Whether a call has still to wake workers for what it has done. -/
def Standing.IsWaking : Standing ρ → Prop
  | queued _ | enabled | closing .flagged => True
  | _ => False

/-- The handle of the task that a call is about to queue. -/
def Standing.handle? : Standing ρ → Option HandleId
  | opened id => some id
  | _ => none

/-- What the next step of a call does to its standing, to its thread and to the pool. -/
inductive Moves (errand : Errand β) :
    Standing ρ → Thread → Pool β ρ → Standing ρ → Thread → Pool β ρ → Prop
  | openHandle {t pool} (hsubmit : ∃ body owners, errand = .submit body owners) :
      Moves errand .ready t pool (.opened pool.board.nextHandle) t
        { pool with board := pool.board.openHandle.2 }
  | accept {k t pool task} (htask : errand.task? k = some task) (hopen : pool.shutDown = false) :
      Moves errand k t pool
        (if pool.workEnabled then .queued k.handle? else .accepted k.handle?) t (pool.accept task)
  | refuse {k t pool task} (htask : errand.task? k = some task) (hshut : pool.shutDown = true) :
      Moves errand k t pool (.refused k.handle?) t pool
  | wakeOne {id? t pool} (choice : Choice) :
      Moves errand (.queued id?) t pool (.accepted id?) t (pool.wakeOne choice)
  | tellLost {id t pool} :
      Moves errand (.refused (some id)) t pool (.lost id) t
        { pool with board := pool.board.tell id .lost }
  | enableWork {t pool} (herrand : errand = .signalWork) :
      Moves errand .ready t pool .enabled t pool.enableWork
  | wakeAll {t pool} : Moves errand .enabled t pool .finished t pool.wakeAll
  | disableWork {t pool} (herrand : errand = .signalWait) :
      Moves errand .ready t pool .finished t pool.disableWork
  | beginShutdown {t pool} (hcloses : errand.closes = true) :
      Moves errand (.closing .begun) t pool (.closing .flagged) t pool.beginShutdown
  | announce {t pool} :
      Moves errand (.closing .flagged) t pool (.closing .announced) t pool.wakeAll
  | takeNone {t pool} (hnone : pool.unjoined = []) :
      Moves errand (.closing .announced) t pool (.closed false) t pool.takeWorkers.2
  | takeWorkers {t pool} (hsome : pool.unjoined ≠ []) :
      Moves errand (.closing .announced) t pool (.closing (.joining pool.unjoined)) t
        pool.takeWorkers.2
  | joinWorker {i left t pool} (hover : pool.isOver i = true) :
      Moves errand (.closing (.joining (i :: left))) t pool (.closing (.joining left)) t pool
  | joinedAll {t pool} :
      Moves errand (.closing (.joining [])) t pool (.reporting pool.name) t pool
  | report {name t pool} :
      Moves errand (.reporting name) t pool (.closed true)
        (t.report (.event (.poolFinalized name))) pool
  | dropLast {t pool} (herrand : errand = .dropOwner) (hlast : pool.owners = 1) :
      Moves errand .ready t pool (.closing .begun) t { pool with owners := pool.owners - 1 }
  | dropOther {t pool} (herrand : errand = .dropOwner) (hother : pool.owners ≠ 1) :
      Moves errand .ready t pool .finished t { pool with owners := pool.owners - 1 }
  | release {joined t pool} (herrand : errand = .dropOwner) :
      Moves errand (.closed joined) t pool .finished t pool.release
  | openGroup {t pool} (herrand : errand = .newGroup) :
      Moves errand .ready t pool (.grouped pool.board.nextGroup) t
        { pool with board := pool.board.openGroup.2 }
  | hearDelivered {id t pool outcome} (herrand : errand = .tryJoin id ∨ errand = .join id)
      (hget : pool.board.handles[id]? = some (.delivered outcome)) :
      Moves errand .ready t pool (.heard (some outcome)) t
        { pool with board := pool.board.dropHandle id }
  | hearLost {id t pool} (herrand : errand = .tryJoin id ∨ errand = .join id)
      (hget : pool.board.handles[id]? = some .lost) :
      Moves errand .ready t pool (.heard none) t { pool with board := pool.board.dropHandle id }
  | detach {id t pool} (herrand : errand = .detach id) :
      Moves errand .ready t pool .finished t { pool with board := pool.board.dropHandle id }
  | waitGroup {id t pool group} (herrand : errand = .waitGroup id)
      (hget : pool.board.groups[id]? = some group) (hempty : group.pending = 0) :
      Moves errand .ready t pool (.told group.answer) t
        { pool with board := pool.board.dropGroup id }
  | abandonGroup {id t pool} (herrand : errand = .abandonGroup id) :
      Moves errand .ready t pool .finished t { pool with board := pool.board.dropGroup id }

/-- Where a call may end, and with what. -/
inductive Ends : Errand β → Standing ρ → Except Fault (Answer ρ) → Prop
  | submitted {body owners id} : Ends (.submit body owners) (.accepted (some id)) (.ok (.handle id))
  | lost {body owners id} : Ends (.submit body owners) (.lost id) (.ok (.handle id))
  | executed {body owners} : Ends (.execute body owners) (.accepted none) (.ok (.verdict (.ok ())))
  | executeRefused {body owners} :
      Ends (.execute body owners) (.refused none) (.ok (.verdict (.error .poolShutDown)))
  | spawned {group body owners} :
      Ends (.spawnMember group body owners) (.accepted none) (.ok (.verdict (.ok ())))
  | spawnRefused {group body owners} :
      Ends (.spawnMember group body owners) (.refused none)
        (.ok (.verdict (.error .poolShutDown)))
  | signalledWork : Ends .signalWork .finished (.ok .done)
  | signalledWait : Ends .signalWait .finished (.ok .done)
  | finalized {joined} : Ends .finalize (.closed joined) (.ok .done)
  | dropped : Ends .dropOwner .finished (.ok .done)
  | grouped {id} : Ends .newGroup (.grouped id) (.ok (.group id))
  | triedValue {id result} :
      Ends (.tryJoin id) (.heard (some (.value result))) (.ok (.outcome (.ok result)))
  | triedFault {id payload} :
      Ends (.tryJoin id) (.heard (some (.fault payload)))
        (.ok (.outcome (.error (.taskFaulted payload.message))))
  | triedLost {id} : Ends (.tryJoin id) (.heard none) (.ok (.outcome (.error .poolShutDown)))
  | joinedValue {id result} :
      Ends (.join id) (.heard (some (.value result))) (.ok (.value result))
  | joinedFault {id payload} :
      Ends (.join id) (.heard (some (.fault payload))) (.error (.reraised payload))
  | joinedLost {id} : Ends (.join id) (.heard none) (.error (.failed .poolShutDown))
  | detached {id} : Ends (.detach id) .finished (.ok .done)
  | waited {id answer} : Ends (.waitGroup id) (.told answer) (.ok (.verdict answer))
  | abandoned {id} : Ends (.abandonGroup id) .finished (.ok .done)
  | made : Ends .series .ready (.ok .done)

/-- What a call may do. It leaves alone what the tasks share, and whoever has to wake workers need
not wait for it. -/
def discipline (errand : Errand β) : Discipline (Standing ρ) (Thread × Worksite β ε ρ) where
  relies _ _ := True
  prompt k := k.IsWaking
  barred _ := True
  moves _ k x k' y := y.2.env = x.2.env ∧ Moves errand k x.1 x.2.pool k' y.1 y.2.pool

section Steps

variable {errand : Errand β} {E : Standing ρ → Except Fault α → Prop} {k k' : Standing ρ}

/-- A change of the pool in one step that brings an answer. -/
theorem keeps_exchange {f : Pool β ρ → α × Pool β ρ} {g : Pool β ρ → Standing ρ}
    (hmoves : ∀ t pool, Moves errand k t pool (g pool) t (f pool).2)
    (hends : ∀ pool, E (g pool) (.ok (f pool).1)) :
    Keeps (discipline errand) E (exchange f : Call (Worksite β ε ρ) α) k := by
  refine ⟨fun _ _ => ⟨0, _, _, rfl⟩, ?_⟩
  rintro choice ⟨t, s⟩ b ⟨t', s'⟩ _ hact
  cases hact
  exact ⟨g s.pool, ⟨rfl, hmoves t s.pool⟩, hends s.pool⟩

/-- A change of the pool in one step. -/
theorem keeps_change {E : Standing ρ → Except Fault Unit → Prop} {f : Pool β ρ → Pool β ρ}
    (hmoves : ∀ t pool, Moves errand k t pool k' t (f pool)) (hends : E k' (.ok ())) :
    Keeps (discipline errand) E (change f : Call (Worksite β ε ρ) Unit) k :=
  keeps_exchange (f := fun pool => ((), f pool)) (g := fun _ => k') hmoves fun _ => hends

/-- What a call answers is made of the value of another one. -/
theorem keeps_answer {γ : Type} {call : Call (Worksite β ε ρ) γ} {f : γ → α}
    (hcall : Keeps (discipline errand) (fun k result => E k (result.map f)) call k) :
    Keeps (discipline errand) E (do return f (← call)) k :=
  keeps_bind hcall (fun _ _ hends => hends) fun _ _ hends => hends

end Steps

/-- A call that queues a task is accepted or refused. -/
theorem keeps_enqueue {errand : Errand β} {k : Standing ρ} {task : Task β}
    (htask : errand.task? k = some task) :
    Keeps (discipline errand)
      (fun k' result => k' = .accepted k.handle? ∧ result = .ok true ∨
        k' = .refused k.handle? ∧ result = .ok false)
      (enqueue task : Call (Worksite β ε ρ) Bool) k := by
  refine keeps_bind (R := fun k' result =>
    (k' = .queued k.handle? ∧ result = .ok (some true)) ∨
    (k' = .accepted k.handle? ∧ result = .ok (some false)) ∨
    (k' = .refused k.handle? ∧ result = .ok none)) ?offer ?wake ?fault
  case offer =>
    refine keeps_exchange (g := fun pool =>
      if pool.shutDown then .refused k.handle?
      else if pool.workEnabled then .queued k.handle? else .accepted k.handle?) ?_ ?_
    · intro t pool
      obtain ⟨hshut, hoffer⟩ | ⟨hopen, hoffer⟩ := pool.offer?_cases task
      · rw [hoffer, if_pos hshut]
        exact .refuse htask hshut
      · rw [hoffer, if_neg (by simp [hopen])]
        exact .accept htask hopen
    · intro pool
      obtain ⟨hshut, hoffer⟩ | ⟨hopen, hoffer⟩ := pool.offer?_cases task
      · rw [hoffer]
        exact .inr (.inr ⟨if_pos hshut, rfl⟩)
      · rw [hoffer, if_neg (by simp [hopen])]
        cases henabled : pool.workEnabled with
        | true => exact .inl ⟨rfl, congrArg (Except.ok ∘ some) henabled⟩
        | false => exact .inr (.inl ⟨rfl, congrArg (Except.ok ∘ some) henabled⟩)
  case wake =>
    rintro _ enabled? (⟨rfl, hresult⟩ | ⟨rfl, hresult⟩ | ⟨rfl, hresult⟩) <;> cases hresult
    · refine keeps_bind_gives (j := .accepted k.handle?) (P := fun _ => True) ?_
        fun _ _ => .inl ⟨rfl, rfl⟩
      refine ⟨fun _ _ => ⟨0, _, _, rfl⟩, ?_⟩
      rintro choice ⟨t, s⟩ b ⟨t', s'⟩ _ hact
      cases hact
      exact ⟨_, ⟨rfl, .wakeOne choice⟩, rfl, _, trivial, rfl⟩
    · exact .inl ⟨rfl, rfl⟩
    · exact .inr ⟨rfl, rfl⟩
  case fault => rintro _ fault (⟨-, hresult⟩ | ⟨-, hresult⟩ | ⟨-, hresult⟩) <;> cases hresult

/-- To submit is to open a handle, to queue its task and to wake a worker. -/
theorem keeps_submit (body : β) (owners : Nat) :
    Keeps (discipline (.submit body owners))
      (fun k result => Ends (.submit body owners) k (result.map .handle))
      (submit body owners : Call (Worksite β ε ρ) HandleId) .ready := by
  refine keeps_bind (R := fun k result => ∃ id, k = .opened id ∧ result = .ok id)
    (keeps_exchange (g := fun pool => .opened pool.board.nextHandle)
      (fun _ _ => .openHandle ⟨body, owners, rfl⟩) fun pool => ⟨_, rfl, rfl⟩) ?_ ?_
  case refine_2 =>
    rintro _ fault ⟨id, -, hresult⟩
    cases hresult
  rintro _ id ⟨_, rfl, hresult⟩
  cases hresult
  refine keeps_bind (keeps_enqueue rfl) ?_ ?_
  · rintro _ granted (⟨rfl, hresult⟩ | ⟨rfl, hresult⟩) <;> cases hresult
    · exact .submitted
    · refine keeps_bind_gives (j := .lost id) (P := fun _ => True)
        (keeps_change (fun _ _ => .tellLost) ⟨rfl, _, trivial, rfl⟩) fun _ _ => ?_
      exact .lost
  · rintro _ fault (⟨-, hresult⟩ | ⟨-, hresult⟩) <;> cases hresult

/-- To execute is to queue a task and to wake a worker. -/
theorem keeps_execute (body : β) (owners : Nat) :
    Keeps (discipline (.execute body owners))
      (fun k result => Ends (.execute body owners) k (result.map .verdict))
      (execute body owners : Call (Worksite β ε ρ) (Except Failure Unit)) .ready := by
  refine keeps_bind (keeps_enqueue rfl) ?_ ?_
  · rintro _ granted (⟨rfl, hresult⟩ | ⟨rfl, hresult⟩) <;> cases hresult
    · exact .executed
    · exact .executeRefused
  · rintro _ fault (⟨-, hresult⟩ | ⟨-, hresult⟩) <;> cases hresult

/-- To queue a member is to take a place in its group with it. -/
theorem keeps_spawnMember (group : GroupId) (body : β) (owners : Nat) :
    Keeps (discipline (.spawnMember group body owners))
      (fun k result => Ends (.spawnMember group body owners) k (result.map .verdict))
      (spawnMember group body owners : Call (Worksite β ε ρ) (Except Failure Unit)) .ready := by
  refine keeps_bind (keeps_enqueue rfl) ?_ ?_
  · rintro _ granted (⟨rfl, hresult⟩ | ⟨rfl, hresult⟩) <;> cases hresult
    · exact .spawned
    · exact .spawnRefused
  · rintro _ fault (⟨-, hresult⟩ | ⟨-, hresult⟩) <;> cases hresult

/-- Whoever joins the workers waits for one after the other. -/
private theorem keeps_joinWorkers {errand : Errand β} (left : List Nat) :
    Keeps (discipline errand)
      (Gives (.closing (.joining []) : Standing ρ) fun _ => True)
      (left.forM joinWorker : Call (Worksite β ε ρ) Unit) (.closing (.joining left)) := by
  induction left with
  | nil => exact ⟨rfl, _, trivial, rfl⟩
  | cons i left ih =>
    refine keeps_bind_gives (j := .closing (.joining left)) (P := fun _ => True) ?_ fun _ _ => ih
    refine ⟨nofun, ?_⟩
    rintro choice ⟨t, s⟩ b ⟨t', s'⟩ _ hact
    obtain ⟨⟨_, s''⟩, hover, heq⟩ := Option.map_eq_some_iff.1 hact
    cases heq
    change (if s.pool.isOver i then some ((), s) else none) = some (b, s') at hover
    split at hover
    · next hjoin =>
      cases hover
      exact ⟨_, ⟨rfl, .joinWorker hjoin⟩, rfl, _, trivial, rfl⟩
    · cases hover

/-- To close a pool is to shut it down, to wake everybody and to join the workers one by one. -/
theorem keeps_finalize {errand : Errand β} (hcloses : errand.closes = true) :
    Keeps (discipline errand)
      (fun (k : Standing ρ) result => (∃ joined, k = .closed joined) ∧ result = .ok ())
      (finalize : Call (Worksite β ε ρ) Unit) (.closing .begun) := by
  refine keeps_bind_gives (j := .closing .flagged) (P := fun _ => True)
    (keeps_change (fun _ _ => .beginShutdown hcloses) ⟨rfl, _, trivial, rfl⟩) fun _ _ => ?_
  refine keeps_bind_gives (j := .closing .announced) (P := fun _ => True)
    (keeps_change (fun _ _ => .announce) ⟨rfl, _, trivial, rfl⟩) fun _ _ => ?_
  refine keeps_bind (R := fun k result => (k = .closed false ∧ result = .ok []) ∨
    ∃ i left, k = .closing (.joining (i :: left)) ∧ result = .ok (i :: left)) ?take ?join ?fault
  case take =>
    refine keeps_exchange (g := fun pool =>
      match pool.unjoined with
      | [] => .closed false
      | i :: left => .closing (.joining (i :: left))) ?_ ?_
    · intro t pool
      cases hleft : pool.unjoined with
      | nil => exact .takeNone hleft
      | cons i left =>
        simp only
        rw [← hleft]
        exact .takeWorkers (by simp [hleft])
    · intro pool
      cases hleft : pool.unjoined with
      | nil => exact .inl ⟨rfl, congrArg _ hleft⟩
      | cons i left => exact .inr ⟨i, left, rfl, congrArg _ hleft⟩
  case join =>
    rintro _ left (⟨rfl, hresult⟩ | ⟨i, left, rfl, hresult⟩) <;> cases hresult
    · exact ⟨⟨false, rfl⟩, rfl⟩
    · refine keeps_bind_gives (keeps_joinWorkers (i :: left)) fun _ _ => ?_
      refine keeps_bind (R := fun k result => ∃ name, k = .reporting name ∧ result = .ok name)
        (keeps_exchange (f := fun pool => (pool.name, pool)) (g := fun pool => .reporting pool.name)
          (fun _ _ => .joinedAll) fun pool => ⟨_, rfl, rfl⟩) ?_ ?_
      · rintro _ _ ⟨name, rfl, hresult⟩
        cases hresult
        refine ⟨nofun, ?_⟩
        rintro choice ⟨t, s⟩ b ⟨t', s'⟩ _ hact
        cases hact
        exact ⟨_, ⟨rfl, .report⟩, ⟨true, rfl⟩, rfl⟩
      · rintro _ fault ⟨_, -, hresult⟩
        cases hresult
  case fault =>
    rintro _ fault (⟨-, hresult⟩ | ⟨_, _, -, hresult⟩) <;> cases hresult

/-- To give up an owner is to close the pool if it was the last one. -/
theorem keeps_dropOwner :
    Keeps (discipline (.dropOwner : Errand β))
      (fun (k : Standing ρ) result => Ends (.dropOwner : Errand β) k (result.map fun _ => .done))
      (dropOwner : Call (Worksite β ε ρ) Unit) .ready := by
  refine keeps_bind (R := fun k result => (k = .closing .begun ∧ result = .ok true) ∨
    (k = .finished ∧ result = .ok false)) ?drop ?close ?fault
  case drop =>
    refine keeps_exchange (g := fun pool =>
      if pool.owners == 1 then .closing .begun else .finished) ?_ ?_
    · intro t pool
      by_cases hlast : pool.owners = 1
      · simp only [beq_iff_eq, if_pos hlast]
        exact .dropLast rfl hlast
      · simp only [beq_iff_eq, if_neg hlast]
        exact .dropOther rfl hlast
    · intro pool
      cases hlast : pool.owners == 1 with
      | true => exact .inl ⟨rfl, rfl⟩
      | false => exact .inr ⟨rfl, rfl⟩
  case close =>
    rintro _ last (⟨rfl, hresult⟩ | ⟨rfl, hresult⟩) <;> cases hresult
    · refine keeps_bind (keeps_finalize rfl) ?_ ?_
      · rintro _ _ ⟨⟨joined, rfl⟩, -⟩
        exact keeps_change (fun _ _ => .release rfl) .dropped
      · rintro _ fault ⟨-, hresult⟩
        cases hresult
    · exact .dropped
  case fault => rintro _ fault (⟨-, hresult⟩ | ⟨-, hresult⟩) <;> cases hresult

/-- Whoever waits for a task hears of its end, or that it was dropped. -/
theorem keeps_awaitHandle {errand : Errand β} {id : HandleId}
    (herrand : errand = .tryJoin id ∨ errand = .join id) :
    Keeps (discipline errand)
      (fun (k : Standing ρ) result => ∃ outcome?, k = .heard outcome? ∧ result = .ok outcome?)
      (awaitHandle id : Call (Worksite β ε ρ) (Option (Outcome ρ))) .ready := by
  refine ⟨nofun, ?_⟩
  rintro choice ⟨t, s⟩ b ⟨t', s'⟩ _ hact
  obtain ⟨⟨outcome?, s''⟩, hhear, heq⟩ := Option.map_eq_some_iff.1 hact
  cases heq
  dsimp only at hhear
  split at hhear
  · next outcome hget =>
    cases hhear
    exact ⟨_, ⟨rfl, .hearDelivered herrand hget⟩, _, rfl, rfl⟩
  · next hget =>
    cases hhear
    exact ⟨_, ⟨rfl, .hearLost herrand hget⟩, _, rfl, rfl⟩
  · cases hhear
  · cases hhear

/-- To join a handle is to wait for its outcome in one step. -/
theorem keeps_tryJoin (id : HandleId) :
    Keeps (discipline (.tryJoin id))
      (fun k result => Ends (.tryJoin id : Errand β) k (result.map .outcome))
      (tryJoin id : Call (Worksite β ε ρ) (Except Failure ρ)) .ready := by
  refine keeps_bind (keeps_awaitHandle (.inl rfl)) ?_ ?_
  · rintro _ outcome? ⟨_, rfl, hresult⟩
    cases hresult
    rcases outcome? with _ | ⟨result | payload⟩
    · exact .triedLost
    · exact .triedValue
    · exact .triedFault
  · rintro _ fault ⟨_, -, hresult⟩
    cases hresult

theorem keeps_join (id : HandleId) :
    Keeps (discipline (.join id))
      (fun k result => Ends (.join id : Errand β) k (result.map .value))
      (join id : Call (Worksite β ε ρ) ρ) .ready := by
  refine keeps_bind (keeps_awaitHandle (.inr rfl)) ?_ ?_
  · rintro _ outcome? ⟨_, rfl, hresult⟩
    cases hresult
    rcases outcome? with _ | ⟨result | payload⟩
    · exact .joinedLost
    · exact .joinedValue
    · exact .joinedFault
  · rintro _ fault ⟨_, -, hresult⟩
    cases hresult

/-- To wait for a group is one step as well. -/
theorem keeps_waitGroup (id : GroupId) :
    Keeps (discipline (.waitGroup id))
      (fun (k : Standing ρ) result => Ends (.waitGroup id : Errand β) k (result.map .verdict))
      (waitGroup id : Call (Worksite β ε ρ) (Except Failure Unit)) .ready := by
  refine ⟨nofun, ?_⟩
  rintro choice ⟨t, s⟩ b ⟨t', s'⟩ _ hact
  obtain ⟨⟨answer, s''⟩, hwait, heq⟩ := Option.map_eq_some_iff.1 hact
  cases heq
  dsimp only at hwait
  split at hwait
  · next group hget =>
    split at hwait
    · next hempty =>
      cases hwait
      exact ⟨_, ⟨rfl, .waitGroup rfl hget hempty⟩, .waited⟩
    · cases hwait
  · cases hwait

theorem keeps_newGroup :
    Keeps (discipline (.newGroup : Errand β))
      (fun (k : Standing ρ) result => Ends (.newGroup : Errand β) k (result.map .group))
      (newGroup : Call (Worksite β ε ρ) GroupId) .ready :=
  keeps_exchange (g := fun pool => .grouped pool.board.nextGroup) (fun _ _ => .openGroup rfl)
    fun _ => .grouped

theorem keeps_abandonGroup (id : GroupId) :
    Keeps (discipline (.abandonGroup id))
      (fun (k : Standing ρ) result =>
        Ends (.abandonGroup id : Errand β) k (result.map fun _ => .done))
      (abandonGroup id : Call (Worksite β ε ρ) Unit) .ready :=
  keeps_change (fun _ _ => .abandonGroup rfl) .abandoned

/-- A call on an errand does, from beginning to end, what its discipline allows. -/
theorem keeps_call (errand : Errand β) :
    Keeps (discipline errand) (Ends errand)
      (errand.call : Call (Worksite β ε ρ) (Answer ρ)) errand.start := by
  cases errand with
  | submit body owners => exact keeps_answer (keeps_submit body owners)
  | execute body owners => exact keeps_answer (keeps_execute body owners)
  | spawnMember group body owners => exact keeps_answer (keeps_spawnMember group body owners)
  | signalWork =>
    refine keeps_answer (f := fun _ => Answer.done) (keeps_bind_gives (j := .enabled)
      (P := fun _ => True) (keeps_change (fun _ _ => .enableWork rfl) ⟨rfl, _, trivial, rfl⟩)
      fun _ _ => ?_)
    exact keeps_change (fun _ _ => .wakeAll) .signalledWork
  | signalWait =>
    exact keeps_answer (f := fun _ => Answer.done)
      (keeps_change (fun _ _ => .disableWork rfl) .signalledWait)
  | finalize =>
    refine keeps_answer (f := fun _ => Answer.done) ((keeps_finalize rfl).mono ?_)
    rintro _ _ ⟨⟨joined, rfl⟩, rfl⟩
    exact .finalized
  | dropOwner => exact keeps_answer (f := fun _ => Answer.done) keeps_dropOwner
  | newGroup => exact keeps_answer keeps_newGroup
  | tryJoin id => exact keeps_answer (keeps_tryJoin id)
  | join id => exact keeps_answer (keeps_join id)
  | detach id =>
    exact keeps_answer (f := fun _ => Answer.done)
      (keeps_change (fun _ _ => .detach rfl) .detached)
  | waitGroup id => exact keeps_answer (keeps_waitGroup id)
  | abandonGroup id => exact keeps_answer (f := fun _ => Answer.done) (keeps_abandonGroup id)
  | series => exact .made

end MarkSweep.Pool
