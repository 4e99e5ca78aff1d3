import MarkSweep.Proofs.Cycle.Around
import MarkSweep.Proofs.Pool.Board

namespace MarkSweep

namespace Machine

open Call

variable {α β : Type} {env : Machine → Machine → Prop} {alone : Prop} {ended : List Bool}
  {P P' : Ledger Job World Tally → Prop}

/-- From a ledger with `P` the call leads to one with `P'` in these surroundings, without a fault
and with a thread that is as it was; the workers stay alert. -/
def CarriesIn (env : Machine → Machine → Prop) (alone : Prop) (ended : List Bool)
    (P : Ledger Job World Tally → Prop) (call : Call Machine α)
    (P' : α → Ledger Job World Tally → Prop) : Prop :=
  ∀ t, Meets env alone (Holds alone (Pool.Alert ended) P) t call
    (Yields t fun a => Holds alone (Pool.Alert ended) (P' a))

/-- The same around a collector. -/
abbrev Carries (alone : Prop) (ended : List Bool) (P : Ledger Job World Tally → Prop)
    (call : Call Machine α) (P' : α → Ledger Job World Tally → Prop) : Prop :=
  CarriesIn (Around alone) alone ended P call P'

theorem carries_pure {a : α} {P' : α → Ledger Job World Tally → Prop} (hP : ∀ l, P l → P' a l) :
    CarriesIn env alone ended P (pure a) P' :=
  fun _ => meets_pure fun _ hholds => ⟨a, rfl, rfl, hholds.mono hP⟩

/-- One call after another carries a ledger from where the first begins to where the second ends. -/
theorem carries_bind {call : Call Machine β} {f : β → Call Machine α}
    {R : β → Ledger Job World Tally → Prop} {P' : α → Ledger Job World Tally → Prop}
    (hcall : CarriesIn env alone ended P call R)
    (hthen : ∀ b, CarriesIn env alone ended (R b) (f b) P') :
    CarriesIn env alone ended P (call >>= f) P' :=
  fun t => meets_bind_yields t (hcall t) fun b => hthen b t

theorem CarriesIn.mono {call : Call Machine α} {R R' : α → Ledger Job World Tally → Prop}
    (hcall : CarriesIn env alone ended P call R) (hpre : ∀ l, P' l → P l)
    (hpost : ∀ a l, R a l → R' a l) :
    CarriesIn env alone ended P' call R' := by
  intro t
  refine (hcall t).mono ?_ ?_
  · exact fun machine hholds => hholds.mono hpre
  · rintro result t' machine ⟨a, ha, ht, hholds⟩
    exact ⟨a, ha, ht, hholds.mono (hpost a)⟩

/-- What is fixed before a call may be used for it. -/
theorem carries_given {φ : Prop} {call : Call Machine α} {P' : α → Ledger Job World Tally → Prop}
    (hcall : φ → CarriesIn env alone ended P call P') :
    CarriesIn env alone ended (fun l => φ ∧ P l) call P' :=
  fun t machine hholds =>
    hcall hholds.ledger.1 t machine ⟨hholds.calm, hholds.level, hholds.ledger.2⟩

/-- A step that changes the board and leaves the rest of the pool alone. -/
theorem carries_board {f : Board Tally → α × Board Tally}
    {P' : α → Ledger Job World Tally → Prop} (hP : Firm env alone P)
    (hf : ∀ l, P l → P' (f l.board).1 { l with board := (f l.board).2 }) :
    CarriesIn env alone ended P
      (Pool.exchange fun pool => ((f pool.board).1, { pool with board := (f pool.board).2 }))
      P' := by
  intro t
  apply meets_atomic (hP.stable (steady_alert ended))
  rintro machine ⟨hcalm, hlevel, hledger⟩
  exact ⟨(f machine.pool.board).1, rfl, rfl, hcalm.setBoard _,
    fun halone => (hlevel halone).setBoard _, hf machine.ledger hledger⟩

/-- A new group is empty and takes the next number. -/
theorem carries_newGroup {P' : GroupId → Ledger Job World Tally → Prop} (hP : Firm env alone P)
    (hopen : ∀ l, P l → P' l.board.nextGroup { l with board := l.board.openGroup.2 }) :
    CarriesIn env alone ended P Pool.newGroup P' :=
  carries_board (f := Board.openGroup) hP hopen

/-- A group that is abandoned is off the board. -/
theorem carries_abandonGroup {id : GroupId} (hP : Firm env alone P)
    (hdrop : ∀ l, P l → P' { l with board := l.board.dropGroup id }) :
    CarriesIn env alone ended P (Pool.abandonGroup id) fun _ => P' :=
  carries_board (f := fun board => ((), board.dropGroup id)) hP hdrop

/-- What holds once a task was offered, before a worker is woken for it: the new task may wait for a
worker that is still parked. -/
private def Offered (alone : Prop) (ended : List Bool) (P' : Bool → Ledger Job World Tally → Prop) :
    Option Bool → Machine → Prop
  | some true => Holds alone (Pool.Able ended) (P' true)
  | some false => Holds alone (Pool.Alert ended) (P' true)
  | none => Holds alone (Pool.Alert ended) (P' false)

/-- A task that is offered to an open pool is taken. -/
private theorem offered_of_holds {task : Task Job} {P' : Bool → Ledger Job World Tally → Prop}
    {machine : Machine} (hP' : Firm env alone (P' true)) (hheard : task.audience ≠ .nobody)
    (hadd : ∀ l, P l →
      P' true { l with tasks := task :: l.tasks, board := l.board.enlist task.audience })
    (hrefuse : ¬alone → ∀ l, P l → l.shutDown = true → P' false l)
    (hholds : Holds alone (Pool.Alert ended) P machine) :
    match machine.pool.offer? task with
    | some pool => Offered alone ended P' (some pool.workEnabled) { machine with pool }
    | none => Offered alone ended P' none machine := by
  obtain ⟨hcalm, hlevel, hledger⟩ := hholds
  rw [Pool.offer?_eq]
  cases hshut : machine.pool.shutDown with
  | true =>
    have hothers : ¬alone := by
      intro halone
      have hopened := (hlevel halone).opened
      rw [hshut] at hopened
      cases hopened
    exact ⟨hcalm, hlevel, hrefuse hothers _ hledger hshut⟩
  | false =>
    have hcalm' := hcalm.accept hheard
    have hledger' : P' true (Worksite.ledger { machine with pool := machine.pool.accept task }) :=
      hP'.similar (hadd _ hledger)
        ⟨rfl, (Pool.inFlight_accept machine.pool task).symm, .refl _, rfl, rfl⟩
    simp only [Bool.false_eq_true, if_false]
    cases henabled : machine.pool.workEnabled with
    | true =>
      rw [show (machine.pool.accept task).workEnabled = true from henabled]
      refine ⟨hcalm', fun halone => ?_, hledger'⟩
      exact ⟨⟨hshut, (hlevel halone).crew, (hlevel halone).manned⟩, henabled⟩
    | false =>
      rw [show (machine.pool.accept task).workEnabled = false from henabled]
      refine ⟨hcalm', fun halone => ?_, hledger'⟩
      have hset := (hlevel halone).enabled
      rw [henabled] at hset
      cases hset

/-- To wake one worker for a queued task makes the workers alert again. -/
theorem meets_notifyOne {t : Thread} (hP : Firm env alone P) :
    Meets env alone (Holds alone (Pool.Able ended) P) t Pool.notifyOne
      (Yields t fun _ => Holds alone (Pool.Alert ended) P) := by
  apply meets_choose (hP.stable (steady_able ended))
  intro machine hholds choice
  refine ⟨(), rfl, rfl, hholds.of_stirred (Pool.stirred_wakeOne machine.pool choice) ?_ ?_⟩
  · simp only [Pool.wakeOne]
    split <;> rfl
  · exact fun _ hable => hable.wakeOne choice

/-- The workers of an open pool are called to work. -/
theorem meets_signalWork {t : Thread} (hP : Kept alone P) :
    Meets (Around alone) alone (Holds alone (Pool.Open ended) P) t Pool.signalWork
      (Yields t fun _ => Holds alone (Pool.Alert ended) P) := by
  refine meets_bind_yields t (B := fun _ => Holds alone (Pool.Able ended) P) ?_ fun _ => ?_
  · refine meets_update (stable_holds (steady_open ended) hP) fun machine hholds => ?_
    refine ⟨(), rfl, rfl, hholds.of_stirred (Pool.stirred_of_workers rfl rfl rfl rfl) rfl ?_⟩
    exact fun _ hopen => ⟨⟨hopen.opened, hopen.crew, hopen.manned⟩, rfl⟩
  · unfold Pool.notifyAll
    refine meets_update (stable_holds (steady_able ended) hP) fun machine hholds => ?_
    refine ⟨(), rfl, rfl, hholds.of_stirred (Pool.stirred_wakeAll machine.pool) rfl ?_⟩
    exact fun _ hable => hable.wakeAll

/-- The workers are sent back to rest. -/
theorem meets_signalWait {t : Thread} (hP : Kept alone P) :
    Meets (Around alone) alone (Holds alone (Pool.Alert ended) P) t Pool.signalWait
      (Yields t fun _ => Holds alone (Pool.Dozing ended) P) := by
  unfold Pool.signalWait
  refine meets_update (stable_holds (steady_alert ended) hP) fun machine hholds => ?_
  refine ⟨(), rfl, rfl, hholds.of_stirred (Pool.stirred_of_workers rfl rfl rfl rfl) rfl ?_⟩
  exact fun _ halert => ⟨⟨halert.opened, halert.crew, halert.manned⟩, rfl⟩

/-- A task that is accepted joins the ledger, and a worker is woken for it. It can be refused only
if somebody else has shut the pool down. -/
theorem carries_enqueue {task : Task Job} {P' : Bool → Ledger Job World Tally → Prop}
    (hP : Firm env alone P) (hP' : Firm env alone (P' true)) (hheard : task.audience ≠ .nobody)
    (hadd : ∀ l, P l →
      P' true { l with tasks := task :: l.tasks, board := l.board.enlist task.audience })
    (hrefuse : ¬alone → ∀ l, P l → l.shutDown = true → P' false l) :
    CarriesIn env alone ended P (Pool.enqueue task) P' := by
  intro t
  refine meets_bind_yields t (B := Offered alone ended P') ?_ ?_
  · refine meets_atomic (hP.stable (steady_alert ended)) fun machine hholds => ?_
    have hoffered := offered_of_holds hP' hheard hadd hrefuse hholds
    refine ⟨_, rfl, rfl, ?_⟩
    rcases hoffer : machine.pool.offer? task with _ | pool <;> simpa only [hoffer] using hoffered
  · intro enabled?
    match enabled? with
    | some true =>
      refine meets_bind_yields t (meets_notifyOne hP') fun _ => ?_
      exact meets_pure fun _ hholds => ⟨true, rfl, rfl, hholds⟩
    | some false => exact meets_pure fun _ hholds => ⟨true, rfl, rfl, hholds⟩
    | none => exact meets_pure fun _ hholds => ⟨false, rfl, rfl, hholds⟩

/-- A task that is submitted has a new handle, which says that the task is lost where the pool
refused it. -/
theorem carries_submit {body : Job} {owners : Nat}
    {P₁ P₂ : HandleId → Ledger Job World Tally → Prop}
    (hP : Firm env alone P) (hP₁ : ∀ id, Firm env alone (P₁ id))
    (hP₂ : ∀ id, Firm env alone (P₂ id))
    (hshut : ∀ id, Firm env alone fun l => P₁ id l ∧ l.shutDown = true)
    (hopen : ∀ l, P l → P₁ l.board.nextHandle { l with board := l.board.openHandle.2 })
    (hadd : ∀ id l, P₁ id l → P₂ id { l with tasks := ⟨.handle id, body, owners⟩ :: l.tasks })
    (hlost : ¬alone → ∀ id l, P₁ id l → l.shutDown = true →
      P₂ id { l with board := l.board.tell id .lost }) :
    CarriesIn env alone ended P (Pool.submit body owners) P₂ := by
  refine carries_bind (carries_board (f := Board.openHandle) hP hopen) fun id => ?_
  refine carries_bind (R := fun accepted =>
    if accepted then P₂ id else fun l => ¬alone ∧ P₁ id l ∧ l.shutDown = true) ?_ ?_
  · refine carries_enqueue (hP₁ id) (hP₂ id) (by simp) ?_ ?_
    · intro l hl
      exact hadd id l hl
    · intro hothers l hl hshut
      exact ⟨hothers, hl, hshut⟩
  · intro accepted
    cases accepted with
    | true => exact carries_pure fun _ hl => hl
    | false =>
      refine carries_given fun hothers => ?_
      refine carries_bind (R := fun _ => P₂ id) ?_ fun _ => carries_pure fun _ hl => hl
      refine carries_board (f := fun board => ((), board.tell id .lost)) (hshut id) ?_
      intro l hl
      exact hlost hothers id l hl.1 hl.2

/-- A member of a group that is accepted has its place in the group. -/
theorem carries_spawnMember {group : GroupId} {body : Job} {owners : Nat}
    {P' : Except Failure Unit → Ledger Job World Tally → Prop} (hP : Firm env alone P)
    (hP' : Firm env alone (P' (.ok ())))
    (hadd : ∀ l, P l → P' (.ok ()) { l with
      tasks := ⟨.group group, body, owners⟩ :: l.tasks
      board := l.board.joinGroup group })
    (hrefuse : ¬alone → ∀ l, P l → l.shutDown = true → P' (.error .poolShutDown) l) :
    CarriesIn env alone ended P (Pool.spawnMember group body owners) P' := by
  refine carries_bind (R := fun accepted =>
    P' (if accepted then .ok () else .error .poolShutDown)) ?_ ?_
  · exact carries_enqueue hP hP' (by simp) hadd hrefuse
  · intro accepted
    cases accepted <;> exact carries_pure fun _ hl => hl

/-- Whoever joins a handle waits for its answer, and the handle is gone then. -/
theorem carries_tryJoin {id : HandleId} {P' : Except Failure Tally → Ledger Job World Tally → Prop}
    (hP : Firm env alone P)
    (halive : alone → ∀ machine machine', Around alone machine machine' → env machine machine')
    (hwait : alone → ∀ l, P l → ∃ delivery, l.board.handles[id]? = some delivery ∧
      (delivery.answer? = none → l.tasks ≠ []))
    (hjoin : ∀ l delivery answer, P l → l.board.handles[id]? = some delivery →
      delivery.answer? = some answer → P' answer { l with board := l.board.dropHandle id }) :
    CarriesIn env alone ended P (Pool.tryJoin id) P' := by
  intro t
  refine meets_bind_yields t
    (B := fun outcome => Holds alone (Pool.Alert ended) (P' (match outcome with
      | some (.value result) => .ok result
      | some (.fault payload) => .error (.taskFaulted payload.message)
      | none => .error .poolShutDown))) ?_ ?_
  · refine meets_await (hP.stable (steady_alert ended)) ?_ ?_
    · intro halone machine hholds hblocked
      obtain ⟨delivery, hget, hleft⟩ := hwait halone _ hholds.ledger
      refine (exists_around halone hholds (.inl (hleft ?_))).imp (halive halone machine)
      have hget' : machine.pool.board.handles[id]? = some delivery := hget
      simp only [hget'] at hblocked
      cases delivery with
      | awaited => rfl
      | delivered outcome => cases hblocked
      | lost => cases hblocked
    · rintro machine ⟨hcalm, hlevel, hledger⟩ outcome machine' hstep
      have hcalm' := hcalm.setBoard (machine.pool.board.dropHandle id)
      have hlevel' := fun halone => (hlevel halone).setBoard (machine.pool.board.dropHandle id)
      split at hstep
      · next outcome' hget =>
        cases hstep
        refine ⟨_, rfl, rfl, hcalm', hlevel', ?_⟩
        cases outcome' with
        | value result => exact hjoin _ _ _ hledger hget rfl
        | fault payload => exact hjoin _ _ _ hledger hget rfl
      · next hget =>
        cases hstep
        exact ⟨_, rfl, rfl, hcalm', hlevel', hjoin _ _ _ hledger hget rfl⟩
      · cases hstep
      · cases hstep
  · intro outcome
    match outcome with
    | some (.value result) => exact meets_pure fun _ hholds => ⟨_, rfl, rfl, hholds⟩
    | some (.fault payload) => exact meets_pure fun _ hholds => ⟨_, rfl, rfl, hholds⟩
    | none => exact meets_pure fun _ hholds => ⟨_, rfl, rfl, hholds⟩

/-- Whoever waits for a group waits until it has no members, and the group is gone then. -/
theorem carries_waitGroup {id : GroupId} {P' : Except Failure Unit → Ledger Job World Tally → Prop}
    (hP : Firm env alone P)
    (halive : alone → ∀ machine machine', Around alone machine machine' → env machine machine')
    (hwait : alone → ∀ l, P l → ∃ group, l.board.groups[id]? = some group ∧
      (group.pending ≠ 0 → l.tasks ≠ [] ∨ l.places ≠ []))
    (hjoin : ∀ l group, P l → l.board.groups[id]? = some group → group.pending = 0 →
      P' group.answer { l with board := l.board.dropGroup id }) :
    CarriesIn env alone ended P (Pool.waitGroup id) P' := by
  intro t
  refine meets_await (hP.stable (steady_alert ended)) ?_ ?_
  · intro halone machine hholds hblocked
    obtain ⟨group, hget, hleft⟩ := hwait halone _ hholds.ledger
    refine (exists_around halone hholds (hleft ?_)).imp (halive halone machine)
    intro hnone
    have hget' : machine.pool.board.groups[id]? = some group := hget
    simp only [hget', hnone, if_true] at hblocked
    cases hblocked
  · rintro machine ⟨hcalm, hlevel, hledger⟩ answer machine' hstep
    split at hstep
    · next group hget =>
      split at hstep
      · next hnone =>
        cases hstep
        exact ⟨_, rfl, rfl, hcalm.setBoard _, fun halone => (hlevel halone).setBoard _,
          hjoin _ group hledger hget hnone⟩
      · cases hstep
    · cases hstep

end Machine

end MarkSweep
