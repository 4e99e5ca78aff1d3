namespace MarkSweep

variable {α : Type}

/-- The sum of a count over the members of a list. -/
def total (count : α → Nat) (l : List α) : Nat := l.foldr (fun a rest => count a + rest) 0

@[simp] theorem total_nil (count : α → Nat) : total count [] = 0 := rfl

@[simp] theorem total_cons (count : α → Nat) (a : α) (l : List α) :
    total count (a :: l) = count a + total count l := rfl

/-- The members of two lists are counted one list after the other. -/
@[simp] theorem total_append (count : α → Nat) (l m : List α) :
    total count (l ++ m) = total count l + total count m := by
  induction l with
  | nil => simp
  | cons a l ih => simp [ih]; omega

@[simp] theorem total_map {β : Type} (count : β → Nat) (f : α → β) (l : List α) :
    total count (l.map f) = total (fun a => count (f a)) l := by
  induction l with
  | nil => rfl
  | cons a l ih => simp [ih]

@[simp] theorem total_zero (l : List α) : total (fun _ => 0) l = 0 := by
  induction l with
  | nil => rfl
  | cons a l ih => rw [total_cons, ih]

/-- The rows of a list have as many members together as each of them has. -/
theorem length_flatten_eq_total (rows : List (List α)) :
    rows.flatten.length = total List.length rows := by
  induction rows with
  | nil => rfl
  | cons row rows ih => simp [ih]

/-- The order of the members does not matter. -/
theorem total_of_perm (count : α → Nat) {l m : List α} (hperm : l.Perm m) :
    total count l = total count m := by
  induction hperm with
  | nil => rfl
  | cons a _ ih => simp [ih]
  | swap a b l => simp; omega
  | trans _ _ ih ih' => exact ih.trans ih'

/-- A count that is nowhere larger has no larger total. -/
theorem total_le_total {count count' : α → Nat} (hle : ∀ a, count a ≤ count' a) (l : List α) :
    total count l ≤ total count' l := by
  induction l with
  | nil => exact Nat.le_refl _
  | cons a l ih => have := hle a; simp only [total_cons]; omega

/-- Fewer members have no larger total. -/
theorem total_filter_le (count : α → Nat) {p q : α → Bool} (hsub : ∀ a, q a = true → p a = true)
    (l : List α) : total count (l.filter q) ≤ total count (l.filter p) := by
  induction l with
  | nil => exact Nat.le_refl _
  | cons a l ih =>
    cases hq : q a with
    | true => simp [hq, hsub a hq]; omega
    | false => cases hp : p a <;> simp [hq, hp] <;> omega

/-- Leaving out a member takes at least its own count from the total. -/
theorem total_filter_add_le (count : α → Nat) {p q : α → Bool} (a : α)
    (hsub : ∀ b, q b = true → p b = true) (hp : p a = true) (hq : q a = false) {l : List α}
    (hmem : a ∈ l) : total count (l.filter q) + count a ≤ total count (l.filter p) := by
  induction l with
  | nil => cases hmem
  | cons b l ih =>
    rcases List.mem_cons.1 hmem with rfl | hmem
    · have := total_filter_le count hsub l
      simp [hp, hq]; omega
    · have := ih hmem
      cases hqb : q b with
      | true => simp [hqb, hsub b hqb]; omega
      | false => cases hpb : p b <;> simp [hqb, hpb] <;> omega

/-- Replacing a member changes the total by the difference of the two counts. -/
theorem total_set (count : α → Nat) {l : List α} {i : Nat} {a b : α} (hget : l[i]? = some a) :
    total count (l.set i b) + count a = total count l + count b := by
  induction l generalizing i with
  | nil => cases hget
  | cons c l ih =>
    cases i with
    | zero => cases hget; simp; omega
    | succ i => have := ih hget; simp only [List.set_cons_succ, total_cons]; omega

/-- Replacing a member under a count that is nowhere larger. -/
theorem total_set_le {count count' : α → Nat} {l : List α} {i : Nat} {a : α} (b : α)
    (hle : ∀ x, count x ≤ count' x) (hget : l[i]? = some a) :
    total count (l.set i b) + count' a ≤ total count' l + count b := by
  induction l generalizing i with
  | nil => cases hget
  | cons c l ih =>
    cases i with
    | zero => cases hget; have := total_le_total hle l; simp; omega
    | succ i =>
      have := ih hget
      have := hle c
      simp only [List.set_cons_succ, total_cons]
      omega

/-- Up to order, replacing a member changes the head of a list whose tail stays. -/
theorem exists_perm_cons_of_getElem? {l : List α} {i : Nat} {a : α} (hget : l[i]? = some a) :
    ∃ others, l.Perm (a :: others) ∧ ∀ b, (l.set i b).Perm (b :: others) := by
  obtain ⟨hlt, rfl⟩ := List.getElem?_eq_some_iff.1 hget
  refine ⟨l.take i ++ l.drop (i + 1), ?_, ?_⟩
  · have hsplit : l = l.take i ++ l[i] :: l.drop (i + 1) := by
      rw [List.getElem_cons_drop, List.take_append_drop]
    exact (List.Perm.of_eq hsplit).trans List.perm_middle
  · intro b
    rw [List.set_eq_take_append_cons_drop, if_pos hlt]
    exact List.perm_middle

end MarkSweep
