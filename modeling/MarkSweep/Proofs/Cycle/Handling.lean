import MarkSweep.Proofs.Cycle.Calls
import MarkSweep.Proofs.Pool.Board

namespace MarkSweep

variable {β ε ρ : Type}

/-- How far a collection is with a task that it submits. -/
inductive Handling (ρ : Type)
  /-- It has still to submit the task. -/
  | unissued
  /-- It has a handle for the task. -/
  | opened (id : HandleId)
  /-- It has submitted the task, or learned that the pool refused it. -/
  | issued (id : HandleId)
  /-- It has joined the handle. -/
  | joined (answer : Except Failure ρ)

/-- The handle that is in use. -/
def Handling.id? : Handling ρ → Option HandleId
  | opened id | issued id => some id
  | unissued | joined _ => none

namespace Ledger

/-- How many tasks answer to somebody. -/
def countOf (l : Ledger β ε ρ) (audience : Audience) : Nat :=
  l.tasks.countP fun task => task.audience = audience

/-- What the ledger shows of a task that a collection submits. Until it ends, `W` holds; its answer
satisfies `J`. -/
def Tracks (l : Ledger β ε ρ) (W : Prop) (J : Except Failure ρ → Prop) : Handling ρ → Prop
  | .unissued => W
  | .opened id => l.board.handles[id]? = some .awaited ∧ W
  | .issued id => ∃ delivery, l.board.handles[id]? = some delivery ∧
    match delivery.answer? with
    | none => l.countOf (.handle id) = 1 ∧ W
    | some answer => l.countOf (.handle id) = 0 ∧ J answer
  | .joined answer => J answer

variable {l l' : Ledger β ε ρ} {W W' : Prop} {J J' : Except Failure ρ → Prop}
  {handling : Handling ρ} {id : HandleId} {audience : Audience}

/-- A task counts for its own audience. -/
theorem countOf_cons (env : ε) (task : Task β) (tasks : List (Task β)) (places : List GroupId)
    (board : Board ρ) (shut : Bool) :
    countOf ⟨env, task :: tasks, places, board, shut⟩ audience =
      countOf ⟨env, tasks, places, board, shut⟩ audience
        + if task.audience = audience then 1 else 0 := by
  simp [countOf, List.countP_cons]

/-- Nothing happens to a handle whose delivery and whose tasks stay as they are. -/
theorem Tracks.mono (hl : l.Tracks W J handling)
    (hhandles : ∀ id, handling.id? = some id → l'.board.handles[id]? = l.board.handles[id]?)
    (hcount : ∀ id, handling = .issued id → l'.countOf (.handle id) = l.countOf (.handle id))
    (hW : W → W') (hJ : ∀ answer, J answer → J' answer) : l'.Tracks W' J' handling := by
  cases handling with
  | unissued => exact hW hl
  | opened id => exact ⟨(hhandles id rfl).trans hl.1, hW hl.2⟩
  | issued id =>
    obtain ⟨delivery, hget, hdelivery⟩ := hl
    refine ⟨delivery, (hhandles id rfl).trans hget, ?_⟩
    rw [hcount id rfl]
    revert hdelivery
    cases delivery.answer? with
    | none => exact fun hdelivery => ⟨hdelivery.1, hW hdelivery.2⟩
    | some answer => exact fun hdelivery => ⟨hdelivery.1, hJ answer hdelivery.2⟩
  | joined answer => exact hJ answer hl

/-- A handle hears of the end of its task. -/
theorem Tracks.finish {env env' : ε} {task : Task β} {tasks : List (Task β)}
    {places places' : List GroupId} {board : Board ρ} {shut : Bool} {outcome : Outcome ρ}
    (hl : Tracks ⟨env, task :: tasks, places, board, shut⟩ W J (.issued id))
    (haudience : task.audience = .handle id)
    (hJ : W → ∀ answer, (Delivery.delivered outcome).answer? = some answer → J' answer) :
    Tracks ⟨env', tasks, places', board.tell id (.delivered outcome), shut⟩ W' J'
      (.issued id) := by
  obtain ⟨delivery, hget, hdelivery⟩ := hl
  rw [countOf_cons, if_pos haudience] at hdelivery
  refine ⟨.delivered outcome, ?_, ?_⟩
  · have hget' : board.handles[id]? = some delivery := hget
    rw [Board.getElem?_tell, if_pos rfl, hget', Option.map_some]
  · cases hanswer : delivery.answer? with
    | none =>
      rw [hanswer] at hdelivery
      have hcount : countOf ⟨env', tasks, places', board.tell id (.delivered outcome), shut⟩
          (.handle id) = 0 := Nat.succ.inj hdelivery.1
      cases outcome with
      | value result => exact ⟨hcount, hJ hdelivery.2 _ rfl⟩
      | fault payload => exact ⟨hcount, hJ hdelivery.2 _ rfl⟩
    | some answer =>
      rw [hanswer] at hdelivery
      cases hdelivery.1

/-- A collection that waits for a handle waits for a task. -/
theorem Tracks.exists_delivery (hl : l.Tracks W J (.issued id)) :
    ∃ delivery, l.board.handles[id]? = some delivery ∧
      (delivery.answer? = none → l.tasks ≠ []) := by
  obtain ⟨delivery, hget, hdelivery⟩ := hl
  refine ⟨delivery, hget, ?_⟩
  rintro hnone hempty
  rw [hnone] at hdelivery
  have hcount := hdelivery.1
  rw [countOf, hempty] at hcount
  cases hcount

/-- The answer of a handle that has one. -/
theorem Tracks.answer {delivery : Delivery ρ} {answer : Except Failure ρ}
    (hl : l.Tracks W J (.issued id)) (hget : l.board.handles[id]? = some delivery)
    (hanswer : delivery.answer? = some answer) : l.countOf (.handle id) = 0 ∧ J answer := by
  obtain ⟨delivery', hget', hdelivery⟩ := hl
  rw [hget] at hget'
  cases hget'
  rw [hanswer] at hdelivery
  exact hdelivery

end Ledger

end MarkSweep
