import Mathlib.Data.Set.Card

namespace MarkSweep

/-- The arrivals at a safepoint and what became of them. -/
structure Roll where
  /-- The calls that have arrived, each with its round; the earliest first. -/
  arrivals : List (Nat × Nat) := []
  /-- The calls that have given up waiting, each with the round in which it did. -/
  withdrawals : List (Nat × Nat) := []
  /-- How many rounds are complete. -/
  releases : Nat := 0

namespace Roll

/-- A call arrives, and may complete the round. -/
def enter (roll : Roll) (i : Nat) (complete : Bool) : Roll :=
  { roll with
    arrivals := roll.arrivals ++ [(i, roll.releases)]
    releases := if complete then roll.releases + 1 else roll.releases }

/-- A call gives up waiting. -/
def withdraw (roll : Roll) (i : Nat) : Roll :=
  { roll with withdrawals := roll.withdrawals ++ [(i, roll.releases)] }

/-- The calls that have arrived. -/
def callers (roll : Roll) : List Nat := roll.arrivals.map (·.1)

/-- The calls that a round counts. -/
def counted (roll : Roll) (round : Nat) : Set Nat :=
  {i | (i, round) ∈ roll.arrivals ∧ (i, round) ∉ roll.withdrawals}

/-- Nobody arrives twice or in a round that has not begun, and whoever gives up does so in the round
in which it arrived. -/
structure Sound (roll : Roll) : Prop where
  once : roll.callers.Nodup
  begun : ∀ arrival ∈ roll.arrivals, arrival.2 ≤ roll.releases
  same : ∀ withdrawal ∈ roll.withdrawals, withdrawal ∈ roll.arrivals

variable {roll : Roll} {i j round : Nat} {complete : Bool}

/-- Whoever has arrived is a caller. -/
theorem mem_callers (hmem : (i, round) ∈ roll.arrivals) : i ∈ roll.callers :=
  List.mem_map_of_mem hmem

theorem callers_enter : (roll.enter i complete).callers = roll.callers ++ [i] := by
  simp [callers, enter]

theorem length_arrivals_enter (roll : Roll) (i : Nat) (complete : Bool) :
    (roll.enter i complete).arrivals.length = roll.arrivals.length + 1 :=
  List.length_append

theorem length_withdrawals_withdraw (roll : Roll) (i : Nat) :
    (roll.withdraw i).withdrawals.length = roll.withdrawals.length + 1 :=
  List.length_append

/-- The roll says of `i` what it said before. -/
structure SameFor (roll roll' : Roll) (i : Nat) : Prop where
  callers : i ∈ roll'.callers ↔ i ∈ roll.callers
  counted : ∀ round, i ∈ roll'.counted round ↔ i ∈ roll.counted round
  withdrawals : ∀ round, (i, round) ∈ roll'.withdrawals ↔ (i, round) ∈ roll.withdrawals

theorem SameFor.refl : SameFor roll roll i := ⟨.rfl, fun _ => .rfl, fun _ => .rfl⟩

/-- An arrival does not concern the other calls. -/
theorem sameFor_enter (hne : j ≠ i) : SameFor roll (roll.enter i complete) j where
  callers := by simp [callers_enter, hne]
  counted round := by simp [counted, enter, hne]
  withdrawals _ := .rfl

/-- Nor does it concern them that a call gives up waiting. -/
theorem sameFor_withdraw (hne : j ≠ i) : SameFor roll (roll.withdraw i) j where
  callers := .rfl
  counted round := by simp [counted, withdraw, hne]
  withdrawals round := by simp [withdraw, hne]

theorem finite_counted (roll : Roll) (round : Nat) : (roll.counted round).Finite := by
  refine (List.finite_toSet roll.callers).subset fun i hi => ?_
  exact mem_callers hi.1

/-- A call arrives in one round only. -/
theorem Sound.eq_of_mem (h : roll.Sound) {round' : Nat} (hmem : (i, round) ∈ roll.arrivals)
    (hmem' : (i, round') ∈ roll.arrivals) : round = round' :=
  congrArg Prod.snd (List.inj_on_of_nodup_map h.once hmem hmem' rfl)

/-- A roll stays sound when somebody arrives who was not on it. -/
theorem Sound.enter (h : roll.Sound) (hfresh : i ∉ roll.callers) :
    (roll.enter i complete).Sound := by
  refine ⟨?_, ?_, fun withdrawal hmem => List.mem_append_left _ (h.same withdrawal hmem)⟩
  · rw [callers_enter, List.nodup_append]
    refine ⟨h.once, List.nodup_singleton i, ?_⟩
    intro a ha b hb heq
    rw [List.mem_singleton.1 hb] at heq
    exact hfresh (heq ▸ ha)
  · intro arrival hmem
    have hbegun : arrival.2 ≤ roll.releases := by
      obtain hmem | hnew := List.mem_append.1 hmem
      · exact h.begun arrival hmem
      · rw [List.mem_singleton.1 hnew]
    cases complete with
    | true => exact Nat.le_succ_of_le hbegun
    | false => exact hbegun

/-- A roll stays sound when somebody gives up in the round it came in. -/
theorem Sound.withdraw (h : roll.Sound) (hmem : (i, roll.releases) ∈ roll.arrivals) :
    (roll.withdraw i).Sound := by
  refine ⟨h.once, h.begun, fun withdrawal hwithdrawal => ?_⟩
  obtain hbefore | hnew := List.mem_append.1 hwithdrawal
  · exact h.same withdrawal hbefore
  · rw [List.mem_singleton.1 hnew]
    exact hmem

/-- An arrival is counted in the round that is not complete. -/
theorem Sound.counted_enter (h : roll.Sound) (hfresh : i ∉ roll.callers) :
    (roll.enter i complete).counted roll.releases = insert i (roll.counted roll.releases) := by
  ext j
  simp only [counted, Roll.enter, Set.mem_ofPred_eq, Set.mem_insert_iff, List.mem_append,
    List.mem_singleton, Prod.mk.injEq, and_true]
  constructor
  · rintro ⟨hmem | rfl, hstays⟩
    · exact .inr ⟨hmem, hstays⟩
    · exact .inl rfl
  · rintro (rfl | ⟨hmem, hstays⟩)
    · exact ⟨.inr rfl, fun hgone => hfresh (mem_callers (h.same _ hgone))⟩
    · exact ⟨.inl hmem, hstays⟩

/-- An arrival changes the current round only. -/
theorem counted_enter_of_ne (hround : round ≠ roll.releases) :
    (roll.enter i complete).counted round = roll.counted round := by
  ext j
  simp [counted, enter, hround]

/-- Whoever gives up is counted no more. -/
theorem counted_withdraw :
    (roll.withdraw i).counted roll.releases = roll.counted roll.releases \ {i} := by
  ext j
  simp [counted, withdraw, and_assoc]

theorem counted_withdraw_of_ne (hround : round ≠ roll.releases) :
    (roll.withdraw i).counted round = roll.counted round := by
  ext j
  simp [counted, withdraw, hround]

/-- A round that has not begun counts nobody. -/
theorem Sound.counted_eq_empty (h : roll.Sound) (hround : roll.releases < round) :
    roll.counted round = ∅ := by
  ext j
  refine iff_of_false ?_ (Set.notMem_empty j)
  rintro ⟨hmem, -⟩
  exact absurd (h.begun _ hmem) (Nat.not_le.2 hround)

/-- An arrival is one more that its round counts. -/
theorem Sound.ncard_counted_enter (h : roll.Sound) (hfresh : i ∉ roll.callers) :
    ((roll.enter i complete).counted roll.releases).ncard =
      (roll.counted roll.releases).ncard + 1 := by
  rw [h.counted_enter hfresh]
  refine Set.ncard_insert_of_notMem (fun hmem => hfresh (mem_callers hmem.1)) ?_
  exact roll.finite_counted _

/-- Whoever gives up waiting is one less that its round counts. -/
theorem ncard_counted_withdraw (hmem : i ∈ roll.counted roll.releases) :
    ((roll.withdraw i).counted roll.releases).ncard + 1 =
      (roll.counted roll.releases).ncard := by
  rw [counted_withdraw]
  exact Set.ncard_sdiff_singleton_add_one hmem (roll.finite_counted _)

end Roll

end MarkSweep
