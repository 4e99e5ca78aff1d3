import MarkSweep.Pool.Access
import MarkSweep.Proofs.Company.Shadow

namespace MarkSweep

variable {β ε ρ α : Type}

/-- What the task does to the environment is done to what the veil leaves of it. -/
def Move.veiled (veil : ε → ε) : Move β ε ρ → Move β ε ρ
  | next env rest => next (veil env) rest
  | finish env outcome => finish (veil env) outcome
  | wait => wait
  | adopt rest => adopt rest
  | giveUp rest => giveUp rest
  | ask request rest => ask request rest

namespace Worksite

/-- The pool with what the veil leaves of the environment. -/
def veiled (veil : ε → ε) (s : Worksite β ε ρ) : Worksite β ε ρ := { s with env := veil s.env }

variable {veil : ε → ε} {B : Body β ε ρ}

/-- If the tasks do the same under the veil, so do the workers. -/
theorem workerStep_veiled
    (hB : ∀ name thread env body,
      B.step name thread (veil env) body = (B.step name thread env body).veiled veil)
    (choice : Choice) (i : Nat) (s : Worksite β ε ρ) :
    (s.veiled veil).workerStep B choice i = (s.workerStep B choice i).map (veiled veil) := by
  simp only [workerStep, veiled, hB]
  cases s.pool.workers[i]? with
  | none => rfl
  | some worker =>
    cases hstage : worker.stage with
    | running task =>
      simp only [hstage]
      cases B.step (s.pool.workerName i) worker.thread s.env task.body <;> rfl
    | closing last closing task =>
      simp only [hstage, Option.map_map]
      rfl
    | awake _ | signalling _ | announcing _ | leaving _ | parked | exited | dead =>
      simp only [hstage]
      rfl

end Worksite

namespace Pool

open Call Worksite

variable {veil : ε → ε}

/-- A call that makes nothing of the environment, and leaves it alone. -/
abbrev Blind (veil : ε → ε) (call : Call (Worksite β ε ρ) α) : Prop :=
  Call.Blind (veiled veil) (fun s s' => s'.env = s.env) call

/-- A critical section of the queue lock sees nothing of the environment. -/
theorem blind_exchange (f : Pool β ρ → α × Pool β ρ) :
    Blind veil (exchange f : Call (Worksite β ε ρ) α) :=
  shadows_atomic (fun _ => rfl) fun _ => rfl

theorem blind_change (f : Pool β ρ → Pool β ρ) :
    Blind veil (change f : Call (Worksite β ε ρ) Unit) :=
  shadows_update (fun _ => rfl) fun _ => rfl

theorem blind_inspect (f : Pool β ρ → α) : Blind veil (inspect f : Call (Worksite β ε ρ) α) := by
  refine shadows_read ?_ ?_
  · exact fun _ => rfl
  · exact fun _ => rfl

theorem blind_notifyOne : Blind veil (notifyOne : Call (Worksite β ε ρ) Unit) := by
  refine shadows_choose (fun _ _ => rfl) ?_
  rintro choice s ⟨⟩ s' ⟨⟩
  rfl

theorem blind_notifyAll : Blind veil (notifyAll : Call (Worksite β ε ρ) Unit) :=
  blind_change wakeAll

theorem blind_enqueue (task : Task β) :
    Blind veil (enqueue task : Call (Worksite β ε ρ) Bool) := by
  refine shadows_bind (blind_exchange _) ?_
  rintro (_ | _ | _)
  · exact shadows_pure false
  · exact shadows_pure true
  · exact shadows_bind blind_notifyOne fun _ => shadows_pure true

theorem blind_submit (body : β) (owners : Nat) :
    Blind veil (submit body owners : Call (Worksite β ε ρ) HandleId) := by
  refine shadows_bind (blind_exchange _) fun id => shadows_bind (blind_enqueue _) ?_
  rintro (_ | _)
  · exact shadows_bind (blind_change _) fun _ => shadows_pure id
  · exact shadows_pure id

theorem blind_newGroup : Blind veil (newGroup : Call (Worksite β ε ρ) GroupId) :=
  blind_exchange _

theorem blind_spawnMember (group : GroupId) (body : β) (owners : Nat) :
    Blind veil (spawnMember group body owners : Call (Worksite β ε ρ) (Except Failure Unit)) := by
  refine shadows_bind (blind_enqueue _) ?_
  rintro (_ | _)
  · exact shadows_pure _
  · exact shadows_pure _

theorem blind_signalWork : Blind veil (signalWork : Call (Worksite β ε ρ) Unit) :=
  shadows_bind (blind_change _) fun _ => blind_notifyAll

theorem blind_signalWait : Blind veil (signalWait : Call (Worksite β ε ρ) Unit) :=
  blind_change _

theorem blind_abandonGroup (group : GroupId) :
    Blind veil (abandonGroup group : Call (Worksite β ε ρ) Unit) :=
  blind_change _

theorem blind_joinWorker (i : Nat) : Blind veil (joinWorker i : Call (Worksite β ε ρ) Unit) := by
  refine shadows_await ?_ ?_
  · intro s
    change (if s.pool.isOver i then _ else _) = _
    split <;> rfl
  · intro s a s' hact
    split at hact <;> cases hact
    rfl

theorem blind_finalize : Blind veil (finalize : Call (Worksite β ε ρ) Unit) := by
  have hjoin : ∀ left : List Nat,
      Blind veil (left.forM joinWorker : Call (Worksite β ε ρ) Unit) := by
    intro left
    induction left with
    | nil => exact shadows_pure ()
    | cons i left ih => exact shadows_bind (blind_joinWorker i) fun _ => ih
  refine shadows_bind (blind_change _) fun _ => shadows_bind blind_notifyAll fun _ => ?_
  refine shadows_bind (blind_exchange _) fun left => ?_
  cases left.isEmpty with
  | true => exact shadows_pure ()
  | false =>
    refine shadows_bind (hjoin left) fun _ => shadows_bind (blind_inspect _) fun name => ?_
    refine shadows_emit ?_ _
    exact fun _ => rfl

/-- Whether a thread has to wait for a task is decided by the board. -/
theorem blind_awaitHandle (id : HandleId) :
    Blind veil (awaitHandle id : Call (Worksite β ε ρ) (Option (Outcome ρ))) := by
  refine shadows_await ?_ ?_
  · intro s
    simp only [veiled]
    split <;> rfl
  · intro s a s' hact
    split at hact <;> cases hact <;> rfl

theorem blind_tryJoin (id : HandleId) :
    Blind veil (tryJoin id : Call (Worksite β ε ρ) (Except Failure ρ)) := by
  refine shadows_bind (blind_awaitHandle id) ?_
  rintro (_ | _ | _)
  · exact shadows_pure _
  · exact shadows_pure _
  · exact shadows_pure _

theorem blind_waitGroup (id : GroupId) :
    Blind veil (waitGroup id : Call (Worksite β ε ρ) (Except Failure Unit)) := by
  refine shadows_await ?_ ?_
  · intro s
    simp only [veiled]
    repeat' split
    all_goals rfl
  · intro s a s' hact
    repeat' split at hact
    all_goals cases hact
    all_goals rfl

end Pool

end MarkSweep
