import Mathlib.Algebra.BigOperators.Group.Finset.Piecewise
import Mathlib.Data.Set.Card

namespace MarkSweep

variable {κ : Type} {p : κ → Bool} {stands : Nat → κ} {i : Nat} {k : κ}

/-- How many stand at places of a kind. -/
noncomputable def headcount (p : κ → Bool) (stands : Nat → κ) : Nat :=
  {i | p (stands i) = true}.ncard

/-- Only so many stand at places of a kind. -/
def Few (p : κ → Bool) (stands : Nat → κ) : Prop := {i | p (stands i) = true}.Finite

/-- What the others contribute. -/
private def others (p : κ → Bool) (stands : Nat → κ) (i : Nat) : Set Nat :=
  {j | j ≠ i ∧ p (stands j) = true}

private theorem others_update : others p (Function.update stands i k) i = others p stands i := by
  ext j
  refine and_congr_right fun hj => ?_
  rw [Function.update_of_ne hj]

private theorem finite_others (hfew : Few p stands) : (others p stands i).Finite :=
  hfew.subset fun _ hj => hj.2

private theorem headcount_eq (hfew : Few p stands) :
    headcount p stands = (others p stands i).ncard + (p (stands i)).toNat := by
  unfold headcount
  cases hi : p (stands i) with
  | true =>
    have hset : {j | p (stands j) = true} = insert i (others p stands i) := by
      ext j
      by_cases hj : j = i <;> simp [others, hj, hi]
    rw [hset, Set.ncard_insert_of_notMem (fun hmem => hmem.1 rfl) (finite_others hfew)]
    rfl
  | false =>
    have hset : {j | p (stands j) = true} = others p stands i := by
      ext j
      by_cases hj : j = i <;> simp [others, hj, hi]
    rw [hset]
    rfl

/-- One that moves on does not make many of few. -/
theorem Few.update (hfew : Few p stands) : Few p (Function.update stands i k) := by
  refine (hfew.insert i).subset fun j hj => ?_
  by_cases hji : j = i
  · exact .inl hji
  · refine .inr ?_
    rw [Set.mem_ofPred_eq, Function.update_of_ne hji] at hj
    exact hj

/-- One that moves on is no longer counted where it stood, but where it comes to. -/
theorem headcount_update (hfew : Few p stands) (i : Nat) (k : κ) :
    headcount p (Function.update stands i k) + (p (stands i)).toNat =
      headcount p stands + (p k).toNat := by
  rw [headcount_eq (i := i) hfew, headcount_eq (i := i) hfew.update, others_update,
    Function.update_self]
  omega

theorem headcount_congr {stands' : Nat → κ} (hsame : ∀ i, p (stands' i) = p (stands i)) :
    headcount p stands' = headcount p stands := by
  simp only [headcount, hsame]

/-- Of `n` some are not counted. -/
theorem headcount_lt {n : Nat} (hn : ∀ j, p (stands j) = true → j < n) (hi : i < n)
    (hnot : p (stands i) = false) : headcount p stands < n := by
  have hsub : {j | p (stands j) = true} ⊆ ((Finset.range n).erase i : Set Nat) := by
    intro j hj
    rw [Finset.mem_coe, Finset.mem_erase, Finset.mem_range]
    refine ⟨?_, hn j hj⟩
    rintro rfl
    cases hnot.symm.trans hj
  have hle := Set.ncard_le_ncard hsub (Finset.finite_toSet _)
  rw [Set.ncard_coe_finset, Finset.card_erase_of_mem (Finset.mem_range.2 hi),
    Finset.card_range] at hle
  exact hle.trans_lt (Nat.sub_lt (Nat.zero_lt_of_lt hi) Nat.zero_lt_one)

/-- All of `n` are counted, and nobody else. -/
theorem headcount_eq_of_iff {n : Nat} (hall : ∀ i, p (stands i) = true ↔ i < n) :
    headcount p stands = n := by
  have hset : {i | p (stands i) = true} = (Finset.range n : Set Nat) := by
    ext i
    rw [Set.mem_ofPred_eq, hall, Finset.mem_coe, Finset.mem_range]
  rw [headcount, hset, Set.ncard_coe_finset, Finset.card_range]

/-- Where nobody from `n` on is counted, one may go through the others. -/
theorem headcount_eq_sum {n : Nat} (hn : ∀ j, p (stands j) = true → j < n) :
    headcount p stands = ∑ j ∈ Finset.range n, (p (stands j)).toNat := by
  have hset : {j | p (stands j) = true} =
      ((Finset.range n).filter fun j => p (stands j) = true : Set Nat) := by
    ext j
    simpa using hn j
  rw [headcount, hset, Set.ncard_coe_finset, Finset.card_filter]
  refine Finset.sum_congr rfl fun j _ => ?_
  cases p (stands j) <;> rfl

/-- The members of a list are counted by their places. -/
theorem sum_range_eq_countP {α : Type} (l : List α) (q : Option α → Bool) :
    ∑ j ∈ Finset.range l.length, (q l[j]?).toNat = l.countP fun a => q (some a) := by
  induction l with
  | nil => rfl
  | cons a l ih =>
    rw [List.length_cons, Finset.sum_range_succ', List.countP_cons]
    simp only [List.getElem?_cons_succ, List.getElem?_cons_zero, ih]
    cases q (some a) <;> rfl

theorem headcount_eq_zero (hnone : ∀ i, p (stands i) = false) : headcount p stands = 0 := by
  have hset : {i | p (stands i) = true} = ∅ := by simp [hnone]
  rw [headcount, hset, Set.ncard_empty]

theorem headcount_pos (hfew : Few p stands) (hi : p (stands i) = true) :
    0 < headcount p stands := by
  rw [headcount_eq (i := i) hfew, hi]
  exact Nat.succ_pos _

theorem few_of_none (hnone : ∀ i, p (stands i) = false) : Few p stands := by
  have hset : {i | p (stands i) = true} = ∅ := by simp [hnone]
  rw [Few, hset]
  exact Set.finite_empty

end MarkSweep
