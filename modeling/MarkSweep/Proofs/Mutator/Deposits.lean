import MarkSweep.Heap.Access
import MarkSweep.Proofs.Company.Call

namespace MarkSweep.Heap

open Call

/-- An entry of either kind. -/
inductive Entry
  | object (payload : ObjectEntry)
  | array (payload : ArrayEntry)

namespace Entry

/-- The reference to an entry at this offset. -/
def ref (entry : Entry) (offset : Offset) : Ref :=
  match entry with
  | object _ => .object offset
  | array _ => .array offset

/-- Stores an entry, in place of any other of its kind at this offset. -/
def put (entry : Entry) (offset : Offset) (heap : Heap) : Heap :=
  match entry with
  | object payload => heap.putObject offset payload
  | array payload => heap.putArray offset payload

@[simp] theorem offset_ref (entry : Entry) (offset : Offset) :
    (entry.ref offset).offset = offset := by
  cases entry <;> rfl

end Entry

/-- The entry that a reference names. -/
def entryAt? (heap : Heap) : Ref → Option Entry
  | .object offset => heap.objects[offset]?.map .object
  | .array offset => heap.arrays[offset]?.map .array

section Entries

variable {heap : Heap} {entry : Entry} {offset : Offset} {ref : Ref}

theorem contains_eq_isSome (heap : Heap) (ref : Ref) :
    heap.contains ref = (heap.entryAt? ref).isSome := by
  cases ref <;> simp [contains, entryAt?]

/-- What was stored is found at its reference, and everything else where it was. -/
theorem entryAt?_put (entry : Entry) (offset : Offset) (heap : Heap) (ref : Ref) :
    (entry.put offset heap).entryAt? ref =
      if entry.ref offset = ref then some entry else heap.entryAt? ref := by
  cases entry <;> cases ref <;>
    simp [Entry.put, Entry.ref, putObject, putArray, entryAt?, Std.ExtTreeMap.getElem?_insert,
      apply_ite (Option.map _)]

@[simp] theorem entryAt?_reserve (heap : Heap) (offset : Offset) (ref : Ref) :
    (heap.reserve offset).entryAt? ref = heap.entryAt? ref := by
  cases ref <;> rfl

@[simp] theorem entryAt?_takeOffset (heap : Heap) (ref : Ref) :
    heap.takeOffset.2.entryAt? ref = heap.entryAt? ref := by
  cases ref <;> rfl

@[simp] theorem nextOffset_put (entry : Entry) (offset : Offset) (heap : Heap) :
    (entry.put offset heap).nextOffset = heap.nextOffset := by
  cases entry <;> rfl

/-- The counter is never moved back. -/
theorem toNat_nextOffset_reserve (heap : Heap) (offset : Offset) :
    (heap.reserve offset).nextOffset.toNat = max heap.nextOffset.toNat offset.toNat := by
  have hmax : (heap.reserve offset).nextOffset =
      if heap.nextOffset ≤ offset then offset else heap.nextOffset := rfl
  rw [hmax]
  split
  · next hle => exact (Nat.max_eq_right (UInt64.le_iff_toNat_le.1 hle)).symm
  · next hle => exact (Nat.max_eq_left (Nat.le_of_lt (UInt64.lt_iff_toNat_lt.1
      (UInt64.not_le.1 hle)))).symm

/-- Every offset has one after it but the last. -/
theorem nextAfter_eq_ok_iff {next : Offset} :
    nextAfter offset = .ok next ↔ offset.toNat + 1 < UInt64.size ∧ next = offset + 1 := by
  unfold nextAfter
  split
  · next hlt => simp [hlt, eq_comm]
  · next hlt => simp [hlt]

theorem toNat_add_one (hlt : offset.toNat + 1 < UInt64.size) :
    (offset + 1).toNat = offset.toNat + 1 := by
  rw [UInt64.toNat_add]
  exact Nat.mod_eq_of_lt hlt

end Entries

/-- A call that stores an entry. -/
inductive Deposit
  /-- The entry is to be stored at this offset. -/
  | insert (offset : Offset) (entry : Entry)
  /-- The entry is to be stored at the offset that the counter hands out. -/
  | allocate (entry : Entry)

namespace Deposit

def call : Deposit → Call Heap Ref
  | insert offset (.object payload) => insertObject offset payload
  | insert offset (.array payload) => insertArray offset payload
  | allocate (.object payload) => allocateObject payload
  | allocate (.array payload) => allocateArray payload

/-- The part of an insertion that is done with the heap level held. -/
def fill (offset : Offset) (entry : Entry) : Call Heap Ref := do
  reservePast offset
  .update (entry.put offset)
  return entry.ref offset

theorem call_insert (offset : Offset) (entry : Entry) :
    (insert offset entry).call = guarded .heap (fill offset entry) := by
  cases entry <;> rfl

/-- To allocate is to take an offset and to insert there. -/
theorem call_allocate (entry : Entry) :
    (allocate entry).call = (do
      let offset ← .atomic takeOffset
      (insert offset entry).call) := by
  cases entry <;> rfl

end Deposit

/-- What is left of an insertion at `offset` in `before`: the entry is stored there and the counter
is past it, or nothing has changed. -/
def Inserted (before : Heap) (offset : Offset) (entry : Entry) (t : Thread) : Post Heap Ref :=
  fun result t' after => t' = t ∧
    match result with
    | .ok ref => ref = entry.ref offset ∧ offset.toNat + 1 < UInt64.size ∧
        after = entry.put offset (before.reserve (offset + 1))
    | .error _ => after = before

section Calls

variable {t t₁ : Thread} {before : Heap} {offset : Offset} {entry : Entry}

/-- An entry is put behind a counter that has moved past it. -/
theorem meets_fill (before : Heap) (offset : Offset) (entry : Entry) (t : Thread) :
    Meets Nobody True (fun heap => heap = before) t (Deposit.fill offset entry)
      (before.Inserted offset entry t) := by
  apply meets_bind (R := fun result t' after => t' = t ∧
    match result with
    | .ok _ => offset.toNat + 1 < UInt64.size ∧ after = before.reserve (offset + 1)
    | .error _ => after = before)
  · apply meets_attempt (stable_nobody _)
    rintro heap rfl
    cases hnext : nextAfter offset with
    | error fault => exact ⟨rfl, rfl⟩
    | ok next =>
      obtain ⟨hlt, rfl⟩ := nextAfter_eq_ok_iff.1 hnext
      exact ⟨rfl, hlt, rfl⟩
  · rintro _ t'
    refine meets_given fun hthread => meets_given fun hlt => ?_
    subst hthread
    apply meets_bind_yields t' (B := fun _ heap => heap =
      entry.put offset (before.reserve (offset + 1)))
    · apply meets_update (stable_nobody _)
      rintro heap rfl
      exact ⟨(), rfl, rfl, rfl⟩
    · rintro _
      exact meets_pure fun heap hheap => ⟨rfl, rfl, hlt, hheap⟩
  · exact fun _ _ _ hend => hend

/-- A level is held for the time of a call that does not mind it. -/
theorem meets_guarded_of_eq {α : Type} {level : Level} {body : Call Heap α}
    {P : Except Fault α → Heap → Prop} (hfault : ∀ fault, P (.error fault) before)
    (hbody : ∀ t, Meets Nobody True (fun heap => heap = before) t body
      fun result t' heap => t' = t ∧ P result heap) :
    Meets Nobody True (fun heap => heap = before) t (guarded level body)
      fun result t' heap => t' = t ∧ P result heap := by
  by_cases hrank : t.held.rank ≤ level.rank
  · have henter := Thread.enter_of_rank_le hrank
    apply meets_guarded henter (stable_nobody _) (hbody _) (fun _ _ => stable_nobody _)
    rintro result t' heap ⟨rfl, hend⟩
    exact ⟨Thread.leave_of_enter henter, hend⟩
  · apply meets_guarded_of_error (Thread.enter_of_lt_rank (Nat.lt_of_not_le hrank))
      (stable_nobody _)
    rintro heap rfl
    exact ⟨rfl, hfault _⟩

theorem meets_insert (before : Heap) (offset : Offset) (entry : Entry) (t : Thread) :
    Meets Nobody True (fun heap => heap = before) t (Deposit.insert offset entry).call
      (before.Inserted offset entry t) := by
  rw [Deposit.call_insert]
  exact meets_guarded_of_eq (fun _ => rfl) fun t => meets_fill before offset entry t

/-- An allocation inserts where the counter was, which it has moved on by then. -/
theorem meets_allocate (before : Heap) (entry : Entry) (t : Thread) :
    Meets Nobody True (fun heap => heap = before) t (Deposit.allocate entry).call
      (before.takeOffset.2.Inserted before.nextOffset entry t) := by
  rw [Deposit.call_allocate]
  apply meets_bind_yields t
    (B := fun offset heap => offset = before.nextOffset ∧ heap = before.takeOffset.2)
  · apply meets_atomic (stable_nobody _)
    rintro heap rfl
    exact ⟨_, rfl, rfl, rfl, rfl⟩
  · intro offset
    refine meets_given fun hoffset => ?_
    subst hoffset
    exact meets_insert _ _ entry t

end Calls

end MarkSweep.Heap
