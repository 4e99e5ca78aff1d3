import MarkSweep.Proofs.Company.Discipline
import MarkSweep.Proofs.Mutator.Deposits

namespace MarkSweep

/-- Whether the next step of a call changes the shared state by `f` and nothing else, whatever the
state is and whoever takes it. -/
def Visit.Does {ε S α : Type} (visit : Visit ε S α) (f : S → S) : Prop :=
  ∀ choice thread s, ∃ rest,
    { visit with thread }.next? choice s = some ({ visit with thread, rest }, f s)

namespace Heap.Deposit

open Call

/-- What is to be stored. -/
def entry : Deposit → Entry
  | insert _ entry | allocate entry => entry

/-- How far a call is. -/
inductive Standing
  /-- It has no offset yet. -/
  | taking
  /-- It is to enter the heap level. -/
  | entering (offset : Offset)
  /-- It is to move the counter past its offset. -/
  | passing (offset : Offset)
  /-- It is to store the entry. -/
  | putting (offset : Offset)
  /-- It is to leave the heap level. -/
  | leaving (result : Except Fault Ref)
  | past (result : Except Fault Ref)

/-- To leave the heap level after `body`. -/
def leaveAfter (body : Call Heap Ref) : Call Heap Ref :=
  body.andFinally (onThread fun thread => (.ok (), thread.leave .heap))

namespace Standing

/-- What is left of a call. -/
def rest (entry : Entry) : Standing → Call Heap Ref
  | taking => (allocate entry).call
  | entering offset => (insert offset entry).call
  | passing offset => leaveAfter (fill offset entry)
  | putting offset => leaveAfter do
    .update (entry.put offset)
    return entry.ref offset
  | leaving result => leaveAfter (.ofExcept result)
  | past result => .ofExcept result

/-- What the next step of a call does. -/
def next (entry : Entry) : Standing → Thread × Heap → Option (Standing × Thread × Heap)
  | taking, (t, heap) => some (entering heap.nextOffset, t, heap.takeOffset.2)
  | entering offset, (t, heap) =>
    match t.enter .heap with
    | .ok t' => some (passing offset, t', heap)
    | .error fault => some (past (.error fault), t, heap)
  | passing offset, (t, heap) =>
    match nextAfter offset with
    | .ok next => some (putting offset, t, heap.reserve next)
    | .error fault => some (leaving (.error fault), t, heap)
  | putting offset, (t, heap) =>
    some (leaving (.ok (entry.ref offset)), t, entry.put offset heap)
  | leaving result, (t, heap) => some (past result, t.leave .heap, heap)
  | past _, _ => none

end Standing

variable {deposit : Deposit} {entry : Entry} {k : Standing} {caller t : Thread} {heap : Heap}
  {choice : Choice} {f : Heap → Heap} {offset past : Offset}

theorem next?_onThread {S α β ε : Type} {errand : ε} {caller t : Thread} {s : S} {choice : Choice}
    (f : Thread → Except Fault β × Thread) (g : β → Call S α) :
    Visit.next? choice ⟨errand, caller, t, onThread f >>= g⟩ s =
      some (⟨errand, caller, (f t).2, Call.ofExcept (f t).1 >>= g⟩, s) := rfl

theorem next?_rest :
    Visit.next? choice ⟨deposit, caller, t, k.rest entry⟩ heap =
      (k.next entry (t, heap)).map fun (k', t', heap') =>
        (⟨deposit, caller, t', k'.rest entry⟩, heap') := by
  cases k with
  | taking =>
    rw [Standing.rest, call_allocate]
    rfl
  | entering offset =>
    rw [Standing.rest, call_insert]
    simp only [Standing.next]
    refine (next?_onThread _ _).trans ?_
    cases t.enter .heap <;> rfl
  | passing offset =>
    simp only [Standing.next, Standing.rest, fill, reservePast]
    cases nextAfter offset <;> rfl
  | putting offset => rfl
  | leaving result => cases result <;> rfl
  | past result => rfl

theorem next?_of_next {k' : Standing} {t' : Thread} {heap' : Heap} (choice : Choice)
    (hnext : k.next entry (t, heap) = some (k', t', heap')) :
    Visit.next? choice ⟨deposit, caller, t, k.rest entry⟩ heap =
      some (⟨deposit, caller, t', k'.rest entry⟩, heap') := by
  rw [next?_rest, hnext]
  rfl

/-- Only a call that is past has an answer. -/
theorem answer?_rest :
    Visit.answer? ⟨deposit, caller, t, k.rest entry⟩ =
      match k with
      | .past result => some result
      | _ => none := by
  cases k with
  | taking =>
    rw [Standing.rest, call_allocate]
    rfl
  | entering offset =>
    rw [Standing.rest, call_insert]
    rfl
  | _ => rfl

/-- A deposit never waits. -/
theorem isSome_next (entry : Entry) (k : Standing) (t : Thread) (heap : Heap) :
    (∃ result, k = .past result) ∨ (k.next entry (t, heap)).isSome = true := by
  cases k with
  | taking => exact .inr rfl
  | entering offset => cases henter : t.enter .heap <;> simp [Standing.next, henter]
  | passing offset => cases hpast : nextAfter offset <;> simp [Standing.next, hpast]
  | putting offset => exact .inr rfl
  | leaving result => exact .inr rfl
  | past result => exact .inl ⟨result, rfl⟩

/-- The counter is not moved back, unless the last offset is taken. -/
theorem nextOffset_le_of_next {k' : Standing} {t' : Thread} {heap' : Heap}
    (hnext : k.next entry (t, heap) = some (k', t', heap'))
    (hlow : k = .taking → heap.nextOffset.toNat + 1 < UInt64.size) :
    heap.nextOffset.toNat ≤ heap'.nextOffset.toNat := by
  cases k with
  | taking =>
    cases hnext
    have htaken : heap.takeOffset.2.nextOffset.toNat = heap.nextOffset.toNat + 1 :=
      toNat_add_one (hlow rfl)
    omega
  | entering offset =>
    cases henter : t.enter .heap <;>
    · simp only [Standing.next, henter] at hnext
      cases hnext
      exact Nat.le_refl _
  | passing offset =>
    cases hpast : nextAfter offset with
    | ok past =>
      simp only [Standing.next, hpast] at hnext
      cases hnext
      rw [toNat_nextOffset_reserve]
      exact Nat.le_max_left _ _
    | error fault =>
      simp only [Standing.next, hpast] at hnext
      cases hnext
      exact Nat.le_refl _
  | putting offset =>
    cases hnext
    simp
  | leaving result =>
    cases hnext
    exact Nat.le_refl _
  | past result => cases hnext

theorem does_iff :
    Visit.Does ⟨deposit, caller, t, k.rest entry⟩ f ↔
      ∀ thread heap, ∃ k', k.next entry (thread, heap) = some (k', thread, f heap) := by
  constructor
  · intro hdoes thread heap
    obtain ⟨rest, hnext⟩ := hdoes 0 thread heap
    rw [next?_rest] at hnext
    obtain ⟨⟨k', thread', heap'⟩, hk, heq⟩ := Option.map_eq_some_iff.1 hnext
    cases heq
    exact ⟨k', hk⟩
  · intro hnext choice thread heap
    obtain ⟨k', hk⟩ := hnext thread heap
    exact ⟨k'.rest entry, next?_of_next choice hk⟩

/-- A step that changes nothing but the heap takes an offset, or moves the counter past one, or
leaves the counter alone. -/
theorem cases_of_does (hdoes : Visit.Does ⟨deposit, caller, t, k.rest entry⟩ f) :
    k = .taking ∧ f = (·.takeOffset.2) ∨
      (∃ offset past, k = .passing offset ∧ nextAfter offset = .ok past ∧ f = (·.reserve past)) ∨
        ∀ heap, (f heap).nextOffset = heap.nextOffset := by
  have hnext := does_iff.1 hdoes
  cases k with
  | taking =>
    refine .inl ⟨rfl, funext fun heap => ?_⟩
    obtain ⟨k', hk⟩ := hnext {} heap
    simp only [Standing.next, Option.some.injEq, Prod.mk.injEq] at hk
    exact hk.2.2.symm
  | entering offset =>
    obtain ⟨k', hk⟩ := hnext {} {}
    cases hk
  | passing offset =>
    cases hpast : nextAfter offset with
    | ok past =>
      refine .inr (.inl ⟨offset, past, rfl, hpast, funext fun heap => ?_⟩)
      obtain ⟨k', hk⟩ := hnext {} heap
      simp only [Standing.next, hpast, Option.some.injEq, Prod.mk.injEq] at hk
      exact hk.2.2.symm
    | error fault =>
      refine .inr (.inr fun heap => ?_)
      obtain ⟨k', hk⟩ := hnext {} heap
      simp only [Standing.next, hpast, Option.some.injEq, Prod.mk.injEq] at hk
      rw [← hk.2.2]
  | putting offset =>
    refine .inr (.inr fun heap => ?_)
    obtain ⟨k', hk⟩ := hnext {} heap
    simp only [Standing.next, Option.some.injEq, Prod.mk.injEq] at hk
    rw [← hk.2.2, nextOffset_put]
  | leaving result =>
    obtain ⟨k', hk⟩ := hnext { held := [.heap] } {}
    cases hk
  | past result =>
    obtain ⟨k', hk⟩ := hnext {} {}
    cases hk

/-- To take the last offset brings the counter down, which nothing else does. -/
theorem takeOffset_ne_reserve (past : Offset) :
    (fun heap : Heap => heap.takeOffset.2) ≠ (·.reserve past) := by
  intro heq
  have hcounter : (0 : Offset).toNat =
      (({ nextOffset := 0xFFFFFFFFFFFFFFFF } : Heap).reserve past).nextOffset.toNat :=
    congrArg (·.nextOffset.toNat) (congrFun heq { nextOffset := 0xFFFFFFFFFFFFFFFF })
  rw [toNat_nextOffset_reserve] at hcounter
  have hle := Nat.le_trans (Nat.le_max_left _ past.toNat) (Nat.le_of_eq hcounter.symm)
  exact absurd hle (by decide)

theorem does_takeOffset_iff :
    Visit.Does ⟨deposit, caller, t, k.rest entry⟩ (fun heap => heap.takeOffset.2) ↔
      k = .taking := by
  constructor
  · intro hdoes
    obtain ⟨hk, -⟩ | ⟨_, past, -, -, heq⟩ | hsame := cases_of_does hdoes
    · exact hk
    · exact absurd heq (takeOffset_ne_reserve past)
    · exact absurd (hsame {}) (by decide)
  · rintro rfl
    exact does_iff.2 fun thread heap => ⟨_, rfl⟩

theorem does_reserve_iff (hpast : nextAfter offset = .ok past) :
    Visit.Does ⟨deposit, caller, t, k.rest entry⟩ (·.reserve past) ↔ k = .passing offset := by
  constructor
  · -- From 0 the counter goes to where the step moves it, so it tells the offset.
    have hmax (offset : Offset) :
        (({ nextOffset := 0 } : Heap).reserve offset).nextOffset.toNat = offset.toNat := by
      simp [toNat_nextOffset_reserve]
    obtain ⟨hlt, rfl⟩ := nextAfter_eq_ok_iff.1 hpast
    intro hdoes
    obtain ⟨-, heq⟩ | ⟨offset', past, rfl, hpast', heq⟩ | hsame := cases_of_does hdoes
    · exact absurd heq.symm (takeOffset_ne_reserve _)
    · obtain ⟨hlt', rfl⟩ := nextAfter_eq_ok_iff.1 hpast'
      have hcounter := congrArg (·.nextOffset.toNat) (congrFun heq { nextOffset := 0 })
      simp only [hmax, toNat_add_one hlt, toNat_add_one hlt', Nat.add_right_cancel_iff] at hcounter
      rw [UInt64.toNat_inj.1 hcounter]
    · have hcounter := congrArg UInt64.toNat (hsame { nextOffset := 0 })
      rw [hmax, toNat_add_one hlt] at hcounter
      cases hcounter
  · rintro rfl
    refine does_iff.2 fun thread heap => ⟨.putting offset, ?_⟩
    simp only [Standing.next, hpast]

end Heap.Deposit

end MarkSweep
