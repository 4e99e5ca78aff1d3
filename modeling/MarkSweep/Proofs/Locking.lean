import MarkSweep.Thread

namespace MarkSweep

theorem Held.rank_cons (level : Level) (held : Held) :
    rank (level :: held) = max level.rank (rank held) := by
  have hfold : ∀ (held : Held) (top : Nat),
      held.foldl (fun top level => max top level.rank) top = max top (rank held) := by
    intro held
    induction held with
    | nil => simp [rank]
    | cons level held ih =>
      intro top
      have hzero := ih (max 0 level.rank)
      have htop := ih (max top level.rank)
      simp only [rank, List.foldl_cons] at hzero htop ⊢
      omega
  rw [rank, List.foldl_cons, hfold]
  omega

namespace Thread

variable {thread thread' : Thread} {level : Level}

theorem enter_of_rank_le (hrank : thread.held.rank ≤ level.rank) :
    thread.enter level = .ok { thread with held := level :: thread.held } := by
  have hfollows : level.mayFollow thread.held.rank = true := decide_eq_true hrank
  simp only [enter, Held.enter?, hfollows, if_true]

theorem enter_of_lt_rank (hrank : level.rank < thread.held.rank) :
    thread.enter level = .error (.lockOrder level thread.held.rank) := by
  have hfollows : level.mayFollow thread.held.rank = false := decide_eq_false (by omega)
  simp only [enter, Held.enter?, hfollows, Bool.false_eq_true, if_false]

/-- A thread that holds nothing is below every level. -/
theorem rank_le_of_held_nil (hheld : thread.held = []) : thread.held.rank ≤ level.rank := by
  rw [hheld]
  exact Nat.zero_le _

/-- A thread that holds nothing may enter every level. -/
theorem enter_of_held_nil (hheld : thread.held = []) :
    thread.enter level = .ok { thread with held := level :: thread.held } :=
  enter_of_rank_le (rank_le_of_held_nil hheld)

theorem checkEnter_of_rank_le (hrank : thread.held.rank ≤ level.rank) :
    thread.checkEnter level = .ok () := by
  rw [checkEnter, enter_of_rank_le hrank]
  rfl

theorem checkEnter_of_held_nil (thread : Thread) (hheld : thread.held = []) {level : Level} :
    thread.checkEnter level = .ok () :=
  checkEnter_of_rank_le (rank_le_of_held_nil hheld)

/-- Leaving a level right after entering it changes nothing. -/
theorem leave_of_enter (henter : thread.enter level = .ok thread') :
    thread'.leave level = thread := by
  unfold enter Held.enter? at henter
  split at henter
  · next held hheld =>
    split at hheld
    · cases henter
      cases hheld
      simp [leave, Held.leave]
    · cases hheld
  · cases henter

/-- The level that was entered last is left first. -/
theorem leave_cons (trace : List Record) (level : Level) (held : Held) :
    leave ⟨level :: held, trace⟩ level = ⟨held, trace⟩ := by
  simp [leave, Held.leave]

end Thread

end MarkSweep
