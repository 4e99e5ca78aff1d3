import MarkSweep.Proofs.Rounds

namespace MarkSweep.Muster

open Safepoint

/-- The books of a safepoint at which `n` threads are registered all the time. -/
structure Balanced (n : Nat) (c : Muster) : Prop where
  /-- Arrivals that were not taken back are in a complete round or counted now. -/
  balance : c.roll.arrivals.length = c.roll.withdrawals.length +
    max n 1 * c.safepoint.barrier.generation.toNat + c.safepoint.barrier.arrived
  short : c.safepoint.barrier.arrived < max n 1
  full : ∀ round < c.roll.releases, (c.roll.counted round).ncard = max n 1
  /-- Nobody stays blocked whose round is complete. -/
  free : ∀ i round, (i, round) ∈ c.roll.arrivals → round < c.roll.releases →
    i ∉ c.waiting ∧ (i ∈ c.passing ∨ i ∈ c.givenUp)
  timeouts : ∀ visit ∈ c.visits, ∀ arrived expected,
    visit.answer? = some (timedOut arrived expected) →
      1 ≤ arrived ∧ arrived < expected ∧ expected = n

/-- What every turn keeps as long as nobody registers or unregisters. -/
structure Quorate (n : Nat) (c : Muster) (stands : Nat → Standing) : Prop where
  quorum : c.safepoint.expected = n
  balance : c.roll.arrivals.length = c.roll.withdrawals.length + max n 1 * c.roll.releases +
    c.safepoint.barrier.arrived
  short : c.safepoint.barrier.arrived < max n 1
  full : ∀ round < c.roll.releases, (c.roll.counted round).ncard = max n 1
  timeouts : ∀ i arrived expected, stands i = .past (timedOut arrived expected) →
    1 ≤ arrived ∧ arrived < expected ∧ expected = n

variable {c c' : Muster} {stands stands' : Nat → Standing} {n : Nat}

theorem Quorate.start (n : Nat) :
    Quorate n { safepoint := { registry := ⟨n⟩ } } fun _ => .outside :=
  ⟨rfl, rfl, Nat.lt_of_lt_of_le Nat.zero_lt_one (Nat.le_max_right n 1), nofun, nofun⟩

/-- Where the calls stand after one of them has come to stand at `k`. -/
theorem Quorate.timeouts_update (h : c.Quorate n stands) {i : Nat} {k : Standing}
    (hk : ∀ arrived expected, k = .past (timedOut arrived expected) →
      1 ≤ arrived ∧ arrived < expected ∧ expected = n) :
    ∀ j arrived expected, Function.update stands i k j = .past (timedOut arrived expected) →
      1 ≤ arrived ∧ arrived < expected ∧ expected = n := by
  intro j arrived expected hj
  by_cases hji : j = i
  · subst hji
    rw [Function.update_self] at hj
    exact hk arrived expected hj
  · rw [Function.update_of_ne hji] at hj
    exact h.timeouts j arrived expected hj

/-- An arrival does not change how many calls the complete rounds have counted. -/
theorem Quorate.full_enter (h : c.Quorate n stands) {i round : Nat} {complete : Bool}
    (hround : round < c.roll.releases) :
    ((c.roll.enter i complete).counted round).ncard = max n 1 := by
  rw [Roll.counted_enter_of_ne hround.ne]
  exact h.full round hround

/-- An arrival that completes the round brings the counter up to the quorum. -/
theorem Quorate.arrived_add_one (h : c.Quorate n stands)
    (hfull : c.safepoint.expected ≤ c.safepoint.barrier.arrived + 1) :
    c.safepoint.barrier.arrived + 1 = max n 1 := by
  have hshort := h.short
  rw [h.quorum] at hfull
  omega

/-- The rounds stay full as long as the quorum does not change. -/
theorem Quorate.turn (h : c.Quorate n stands) (hbooked : c.Booked stands)
    (hturn : c.Turn stands c' stands')
    (hconst : ∀ visit ∈ c'.visits, visit.errand.arrives = true) : c'.Quorate n stands' := by
  have hbalance := h.balance
  have hpassed : ∀ arrived expected, Standing.past passed = .past (timedOut arrived expected) →
      1 ≤ arrived ∧ arrived < expected ∧ expected = n :=
    fun _ _ heq => absurd (Standing.past.inj heq) passed_ne_timedOut
  cases hturn with
  | call => exact ⟨h.quorum, h.balance, h.short, h.full, h.timeouts_update nofun⟩
  | @wait i _ _ _ _ _ _ _ _ hshort =>
    have harrivals := c.roll.length_arrivals_enter i false
    refine ⟨h.quorum, ?_, ?_, fun round hround => ?_, h.timeouts_update nofun⟩
    · exact harrivals.trans (congrArg (· + 1) hbalance)
    · rw [h.quorum] at hshort
      exact hshort.trans_le (Nat.le_max_left n 1)
    · exact h.full_enter hround
  | @release i _ _ _ _ _ _ hfresh _ hfull =>
    have harrivals := c.roll.length_arrivals_enter i true
    have hquorum := h.arrived_add_one hfull
    refine ⟨h.quorum, ?_, Nat.lt_of_lt_of_le Nat.zero_lt_one (Nat.le_max_right n 1),
      fun round hround => ?_, h.timeouts_update hpassed⟩
    · calc (c.roll.enter i true).arrivals.length
        _ = c.roll.withdrawals.length + max n 1 * c.roll.releases
              + (c.safepoint.barrier.arrived + 1) := harrivals.trans (congrArg (· + 1) hbalance)
        _ = c.roll.withdrawals.length + max n 1 * (c.roll.releases + 1) + 0 := by
              rw [hquorum, Nat.mul_succ, Nat.add_zero, Nat.add_assoc]
    · obtain hlt | rfl := Nat.lt_succ_iff_lt_or_eq.1 hround
      · exact h.full_enter hlt
      · exact (hbooked.sound.ncard_counted_enter hfresh).trans (hbooked.arrived ▸ hquorum)
  | resume => exact ⟨h.quorum, h.balance, h.short, h.full, h.timeouts_update hpassed⟩
  | @withdraw i arrived _ _ _ _ _ hcounted harrived =>
    have hwithdrawals := c.roll.length_withdrawals_withdraw i
    have hshort := h.short
    refine ⟨h.quorum, ?_, ?_, fun round hround => ?_, h.timeouts_update ?_⟩
    · calc c.roll.arrivals.length
        _ = c.roll.withdrawals.length + max n 1 * c.roll.releases + (arrived + 1) :=
              hbalance.trans (congrArg _ harrived)
        _ = (c.roll.withdraw i).withdrawals.length + max n 1 * c.roll.releases + arrived := by
              rw [hwithdrawals]
              omega
    · rw [harrived] at hshort
      exact (Nat.lt_succ_self arrived).trans hshort
    · have hsame : (c.roll.withdraw i).counted round = c.roll.counted round :=
        Roll.counted_withdraw_of_ne hround.ne
      exact (congrArg Set.ncard hsame).trans (h.full round hround)
    · intro arrived' expected heq
      cases heq
      have hquorum := h.quorum
      omega
  | @enrol i visit visit' result registry hget herrand hstands hregistry =>
    have hmem : visit' ∈ c.visits.set i visit' :=
      List.mem_set (List.getElem?_eq_some_iff.1 hget).1 _
    have harrives := hconst visit' hmem
    rw [herrand, hregistry] at harrives
    cases harrives

theorem run_quorate (hrun : Relation.ReflTransGen Step { safepoint := { registry := ⟨n⟩ } } c)
    (hconst : ∀ visit ∈ c.visits, visit.errand.arrives = true)
    (hfew : c.roll.releases < UInt64.size) :
    ∃ stands, c.Booked stands ∧ c.Quorate n stands := by
  induction hrun with
  | refl => exact ⟨_, .start ⟨n⟩, .start n⟩
  | @tail c c' _ hstep ih =>
    have hfew₀ := hstep.releases_le.trans_lt hfew
    have hconst₀ : ∀ visit ∈ c.visits, visit.errand.arrives = true := by
      intro visit hmem
      obtain ⟨i, hget⟩ := List.mem_iff_getElem?.1 hmem
      obtain ⟨visit', hget', herrand⟩ := hstep.exists_visit hget
      exact herrand ▸ hconst visit' (List.mem_of_getElem? hget')
    obtain ⟨stands, hbooked, h⟩ := ih hconst₀ hfew₀
    obtain ⟨stands', hturn⟩ := hbooked.exists_turn hfew₀ hstep
    exact ⟨stands', hbooked.turn hturn, h.turn hbooked hturn hconst⟩

/-- Where all rounds were full the arrivals balance. -/
theorem Quorate.balanced (h : c.Quorate n stands) (hbooked : c.Booked stands)
    (hfew : c.roll.releases < UInt64.size) : c.Balanced n where
  balance := by
    rw [hbooked.generation, UInt64.toNat_ofNat_of_lt' hfew]
    exact h.balance
  short := h.short
  full := h.full
  free i round hmem hround := by
    refine ⟨fun hwaiting => ?_, ?_⟩
    · have hcounted := (hbooked.mem_waiting_iff hfew).1 hwaiting
      exact hround.ne (hbooked.sound.eq_of_mem hmem hcounted.1)
    · by_cases hgone : (i, round) ∈ c.roll.withdrawals
      · exact .inr (hbooked.mem_givenUp_iff.2 ⟨round, hmem, hgone⟩)
      · exact .inl ((hbooked.mem_passing_iff hfew).2 ⟨round, hround, hmem, hgone⟩)
  timeouts visit hmem arrived expected hanswer := by
    obtain ⟨i, hget⟩ := List.mem_iff_getElem?.1 hmem
    obtain hstanding | ⟨-, hfault⟩ := (hbooked.placed i visit hget).eq_of_answer? hanswer
    · exact h.timeouts i arrived expected hstanding
    · cases hfault

/-- A release lets through as many as the quorum says. -/
theorem Quorate.ncard_release (h : c.Quorate n stands) (hbooked : c.Booked stands)
    (hturn : c.Turn stands c' stands') (hfew : c'.roll.releases < UInt64.size)
    (hrelease : c'.roll.releases ≠ c.roll.releases) :
    c'.safepoint.barrier = ⟨0, c.safepoint.barrier.generation + 1⟩ ∧
      c.passing ⊆ c'.passing ∧ (c'.passing \ c.passing).ncard = max n 1 := by
  have hbooked' := hbooked.turn hturn
  cases hturn with
  | @release i _ _ _ _ _ _ hfresh _ hfull =>
    have hfew₀ : c.roll.releases < UInt64.size := (Nat.lt_succ_self _).trans hfew
    have hwaiting := hbooked.waiting_eq hfew₀
    have hnew : i ∉ c.waiting := by
      rw [hwaiting]
      exact fun hcounted => hfresh (Roll.mem_callers hcounted.1)
    rw [hbooked.passing_release hbooked' rfl hfresh hfew]
    refine ⟨rfl, Set.subset_union_left, ?_⟩
    rw [Set.union_sdiff_cancel_left (hbooked.disjoint_passing hfew₀ hfresh).le_bot,
      Set.ncard_insert_of_notMem hnew (hwaiting ▸ c.roll.finite_counted _), hwaiting,
      ← hbooked.arrived]
    exact h.arrived_add_one hfull
  | _ => exact absurd rfl hrelease

/-- On every run on which nobody registers or unregisters, with fewer releases than there are
generations, the books balance, and each release lets through exactly as many calls as the quorum
says. -/
theorem run_balanced {n : Nat}
    (hrun : Relation.ReflTransGen Step { safepoint := { registry := ⟨n⟩ } } c)
    (hconst : ∀ visit ∈ c.visits, visit.errand.arrives = true)
    (hfew : c.roll.releases < UInt64.size) :
    c.Balanced n ∧ ∀ c', c.Step c' → c'.roll.releases < UInt64.size →
      c'.roll.releases ≠ c.roll.releases →
        c'.safepoint.barrier = ⟨0, c.safepoint.barrier.generation + 1⟩ ∧
          c.passing ⊆ c'.passing ∧ (c'.passing \ c.passing).ncard = max n 1 := by
  obtain ⟨stands, hbooked, h⟩ := run_quorate hrun hconst hfew
  refine ⟨h.balanced hbooked hfew, fun c' hstep hfew' hrelease => ?_⟩
  obtain ⟨stands', hturn⟩ := hbooked.exists_turn hfew hstep
  exact h.ncard_release hbooked hturn hfew' hrelease

/-- Two threads complete a round; one that comes again alone gives up. -/
theorem run_balanced_alone :
    ∃ c : Muster, Relation.ReflTransGen Step { safepoint := { registry := ⟨2⟩ } } c ∧
      (∀ visit ∈ c.visits, visit.errand.arrives = true) ∧ c.roll.releases < UInt64.size ∧
      c.visits.map (·.answer?) = [some passed, some passed, some (timedOut 1 2)] ∧
      c.safepoint.barrier = ⟨0, 1⟩ ∧ c.Balanced 2 := by
  have hcalled := Relation.ReflTransGen.single
    (Step.call (c := { safepoint := { registry := ⟨2⟩ } }) (.arriveAndWaitFor .zero .zero) {})
  have hwaiting := hcalled.tail (.arrive (i := 0) rfl rfl nofun (.ordinary rfl))
  have hreleased := (hwaiting.tail (.call .arriveAndWait {})).tail
    (.arrive (i := 1) rfl rfl (by decide) (.ordinary rfl))
  have hpassed := hreleased.tail (.leave (i := 0) rfl rfl (.head _) (.ordinary rfl))
  have halone := (hpassed.tail (.call (.arriveAndWaitFor .zero .zero) {})).tail
    (.arrive (i := 2) rfl rfl (by decide) (.ordinary rfl))
  have hgone := halone.tail (.leave (i := 2) rfl rfl (.tail _ (.tail _ (.head _)))
    (.of_next? (show Visit.next? 1 _ _ = _ from rfl)))
  refine ⟨_, hgone, ?_, by decide, rfl, rfl, ?_⟩
  · simp [Errand.arrives]
  · exact (run_balanced hgone (by simp [Errand.arrives]) (by decide)).1

end MarkSweep.Muster
