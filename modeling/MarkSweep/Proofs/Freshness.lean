import MarkSweep.Proofs.Containers
import MarkSweep.Proofs.Mutator.Deposits

namespace MarkSweep.Heap

open Call

/-- What a thread asks of a heap. -/
inductive Errand
  | store (deposit : Deposit)
  | writeField (offset : Offset) (index : Nat) (value : Slot)
  | writeElement (offset : Offset) (index : Nat) (value : Slot)
  | sweep (live : LiveSet) (region : Region)

/-- What a thread runs for an errand; only a deposit answers with a reference. -/
def Errand.call : Errand → Call Heap (Option Ref)
  | .store deposit => do return some (← deposit.call)
  | .writeField offset index value => do
    return (fun _ => none) (← Heap.writeField offset index value)
  | .writeElement offset index value => do
    return (fun _ => none) (← Heap.writeElement offset index value)
  | .sweep live region => do return (fun _ => none) (← Heap.sweep live region)

/-- An errand and where the counter was when it was run. -/
structure Served where
  errand : Errand
  counter : Offset

/-- Whether it is an allocation that has taken the last offset, so that the counter started over. -/
def Served.TookLast (served : Served) : Prop :=
  ∃ entry, served.errand = .store (.allocate entry) ∧ served.counter.toNat + 1 = UInt64.size

/-- The heaps that come of a new one by errands one after another, whichever threads run them and
whether they fault or not, with the errands that were run, the latest first. -/
inductive Life : List Served → Heap → Prop
  | new : Life [] {}
  | serve {log : List Served} {heap heap' : Heap} {t t' : Thread} {errand : Errand}
      {result : Except Fault (Option Ref)} (hbefore : Life log heap)
      (hreturns : Routine.Returns (Beside Nobody) errand.call (t, heap) result (t', heap')) :
      Life (⟨errand, heap.nextOffset⟩ :: log) heap'

variable {heap before after : Heap} {log : List Served} {t t' : Thread} {errand : Errand}
  {entry : Entry} {offset : Offset} {ref : Ref} {result : Except Fault (Option Ref)}

/-- Every offset in use lies below the counter. -/
def Bounded (heap : Heap) : Prop :=
  ∀ ref, heap.contains ref = true → ref.offset.toNat < heap.nextOffset.toNat

/-- The counter is where it was, and no entry has come. -/
structure Shrunk (before after : Heap) : Prop where
  nextOffset : after.nextOffset = before.nextOffset
  contains : ∀ ref, after.contains ref = true → before.contains ref = true

theorem Shrunk.refl (heap : Heap) : heap.Shrunk heap := ⟨rfl, fun _ hcontains => hcontains⟩

/-- A heap that shrinks stays below its counter. -/
theorem Bounded.shrunk (hbounded : before.Bounded) (hshrunk : before.Shrunk after) :
    after.Bounded := by
  intro ref hcontains
  rw [hshrunk.nextOffset]
  exact hbounded ref (hshrunk.contains ref hcontains)

/-- To move the counter up past an offset makes room for an entry there. -/
theorem Bounded.inserted (hbounded : before.Bounded) (hlt : offset.toNat + 1 < UInt64.size)
    (entry : Entry) : (entry.put offset (before.reserve (offset + 1))).Bounded := by
  intro ref hcontains
  rw [contains_eq_isSome, entryAt?_put, entryAt?_reserve] at hcontains
  rw [nextOffset_put, toNat_nextOffset_reserve, toNat_add_one hlt]
  split at hcontains
  · next href =>
    rw [← href, Entry.offset_ref]
    omega
  · rw [← contains_eq_isSome] at hcontains
    have hbelow := hbounded ref hcontains
    omega

/-- The counter has handed out its offset, and it was not the last one. -/
theorem Bounded.takeOffset (hbounded : before.Bounded)
    (hlt : before.nextOffset.toNat + 1 < UInt64.size) : before.takeOffset.2.Bounded := by
  intro ref hcontains
  rw [contains_eq_isSome, entryAt?_takeOffset, ← contains_eq_isSome] at hcontains
  have hbelow := hbounded ref hcontains
  have hnext : before.takeOffset.2.nextOffset.toNat = before.nextOffset.toNat + 1 :=
    toNat_add_one hlt
  omega

/-- The offset that the counter hands out next is not in use. -/
theorem Bounded.contains_nextOffset (hbounded : heap.Bounded)
    (href : ref.offset = heap.nextOffset) : heap.contains ref = false := by
  cases hcontains : heap.contains ref with
  | false => rfl
  | true =>
    have hbelow := hbounded ref hcontains
    rw [href] at hbelow
    omega

/-- An entry is stored in place of one that is there. -/
theorem shrunk_put (entry : Entry) (hthere : heap.contains (entry.ref offset) = true) :
    heap.Shrunk (entry.put offset heap) := by
  refine ⟨nextOffset_put entry offset heap, fun ref hcontains => ?_⟩
  rw [contains_eq_isSome, entryAt?_put] at hcontains
  split at hcontains
  · next href => rwa [← href]
  · rwa [contains_eq_isSome]

theorem shrunk_setField (heap : Heap) (offset : Offset) (index : Nat) (value : Slot) :
    heap.Shrunk (heap.setField offset index value).2 := by
  unfold setField
  split
  · next payload hpayload =>
    obtain ⟨old, hold, -⟩ := Option.bind_eq_some_iff.1 hpayload
    apply shrunk_put (.object payload)
    rw [contains_eq_isSome]
    simp [Entry.ref, entryAt?, hold]
  · exact .refl heap

theorem shrunk_setElement (heap : Heap) (offset : Offset) (index : Nat) (value : Slot) :
    heap.Shrunk (heap.setElement offset index value).2 := by
  unfold setElement
  split
  · next payload hpayload =>
    obtain ⟨old, hold, -⟩ := Option.bind_eq_some_iff.1 hpayload
    apply shrunk_put (.array payload)
    rw [contains_eq_isSome]
    simp [Entry.ref, entryAt?, hold]
  · exact .refl heap

theorem shrunk_erase (heap : Heap) (live : LiveSet) (region : Region) :
    heap.Shrunk (heap.erase live region).2 := by
  refine ⟨nextOffset_erase heap live region, fun ref hcontains => ?_⟩
  cases region with
  | monitors => exact hcontains
  | objects =>
    cases ref with
    | array _ => exact hcontains
    | object _ => exact (Container.restricted_eraseDead heap.objects _).contains hcontains
  | arrays =>
    cases ref with
    | object _ => exact hcontains
    | array _ => exact (Container.restricted_eraseDead heap.arrays _).contains hcontains

/-- An errand that is done in one step with the heap level held. -/
theorem meets_shrunk {α : Type} {f : Heap → α × Heap} (hf : ∀ heap, Shrunk heap (f heap).2) :
    Meets Nobody True (fun heap => heap = before) t (guarded .heap (atomic f))
      fun _ t' after => t' = t ∧ before.Shrunk after := by
  apply meets_guarded_of_eq (P := fun _ after => before.Shrunk after) fun _ => .refl before
  intro t
  apply meets_atomic (stable_nobody _)
  rintro heap rfl
  exact ⟨rfl, hf heap⟩

/-- What is left of an insertion, whether it faulted or not. -/
theorem Bounded.of_inserted {outcome : Except Fault Ref} (hbounded : before.Bounded)
    (hend : before.Inserted offset entry t outcome t' after) : after.Bounded := by
  obtain ⟨-, hend⟩ := hend
  cases outcome with
  | error fault =>
    have hsame : after = before := hend
    rwa [hsame]
  | ok ref =>
    obtain ⟨-, hlt, rfl⟩ := hend
    exact hbounded.inserted hlt entry

/-- Every call keeps a heap below its counter, unless it takes the last offset of all. -/
theorem Bounded.served (hbounded : before.Bounded)
    (hreturns : Routine.Returns (Beside Nobody) errand.call (t, before) result (t', after))
    (hspared : ¬Served.TookLast ⟨errand, before.nextOffset⟩) : after.Bounded := by
  cases errand with
  | store deposit =>
    cases deposit with
    | insert offset entry =>
      obtain ⟨outcome, -, hend⟩ :=
        (meets_map some (meets_insert before offset entry t) before rfl).of_returns hreturns
      exact hbounded.of_inserted hend
    | allocate entry =>
      obtain ⟨outcome, -, hend⟩ :=
        (meets_map some (meets_allocate before entry t) before rfl).of_returns hreturns
      have hlt : before.nextOffset.toNat + 1 < UInt64.size := by
        apply Nat.lt_of_le_of_ne (UInt64.toNat_lt_size _)
        exact fun hlast => hspared ⟨entry, rfl, hlast⟩
      exact (hbounded.takeOffset hlt).of_inserted hend
  | writeField offset index value =>
    obtain ⟨-, -, -, hshrunk⟩ := (meets_map (fun _ => none)
      (meets_shrunk fun heap => shrunk_setField heap offset index value) before rfl).of_returns
      hreturns
    exact hbounded.shrunk hshrunk
  | writeElement offset index value =>
    obtain ⟨-, -, -, hshrunk⟩ := (meets_map (fun _ => none)
      (meets_shrunk fun heap => shrunk_setElement heap offset index value) before rfl).of_returns
      hreturns
    exact hbounded.shrunk hshrunk
  | sweep live region =>
    obtain ⟨-, -, -, hshrunk⟩ := (meets_map (fun _ => none)
      (meets_shrunk fun heap => shrunk_erase heap live region) before rfl).of_returns hreturns
    exact hbounded.shrunk hshrunk

/-- As long as no allocation has taken the last offset, every offset in use lies below the
counter. -/
theorem Life.bounded (hlife : Life log heap) (hspared : ∀ served ∈ log, ¬served.TookLast) :
    heap.Bounded := by
  induction hlife with
  | new =>
    intro ref hcontains
    cases ref <;> simp [contains] at hcontains
  | serve _ hreturns ih =>
    have hbefore := ih fun served hmem => hspared served (List.mem_cons_of_mem _ hmem)
    exact hbefore.served hreturns (hspared _ List.mem_cons_self)

/-- An allocation has stored its entry at an offset that named nothing, and changed no other. -/
structure Fresh (before : Heap) (entry : Entry) (ref : Ref) (after : Heap) : Prop where
  object : before.contains (.object ref.offset) = false
  array : before.contains (.array ref.offset) = false
  stored : after.entryAt? ref = some entry
  others : ∀ other, other ≠ ref → after.entryAt? other = before.entryAt? other

/-- As long as no call has taken the last offset, an allocation that returns has stored its entry
where there was none, and leaves the others alone. -/
theorem allocate_fresh (hlife : Life log before) (hspared : ∀ served ∈ log, ¬served.TookLast)
    (hreturns : Routine.Returns (Beside Nobody) (Errand.store (.allocate entry)).call (t, before)
      (.ok (some ref)) (t', after)) : before.Fresh entry ref after := by
  have hbounded := hlife.bounded hspared
  obtain ⟨outcome, hresult, -, hend⟩ :=
    (meets_map some (meets_allocate before entry t) before rfl).of_returns hreturns
  cases outcome with
  | error fault => cases hresult
  | ok made =>
    cases hresult
    obtain ⟨rfl, -, rfl⟩ := hend
    constructor
    case object => exact hbounded.contains_nextOffset (Entry.offset_ref _ _)
    case array => exact hbounded.contains_nextOffset (Entry.offset_ref _ _)
    case stored => rw [entryAt?_put, if_pos rfl]
    case others =>
      intro other hne
      rw [entryAt?_put, if_neg (Ne.symm hne), entryAt?_reserve, entryAt?_takeOffset]

/-- A heap with one object. An array that was to be stored at the last offset is not there. -/
def settled : Heap := ({ nextOffset := 11 } : Heap).putObject 10 {}

theorem life_settled :
    ∃ log, Life log settled ∧ ∀ served ∈ log, ¬served.TookLast := by
  let misfit : Errand := .store (.insert 0xFFFFFFFFFFFFFFFF (.array (.ofStorage #[none])))
  let object : Errand := .store (.insert 10 (.object {}))
  have hfault : Routine.Returns (Beside Nobody) misfit.call ({}, {}) (.error .addOverflow)
      ({}, {}) := Routine.returns_of_advance rfl
  have hstored : Routine.Returns (Beside Nobody) object.call ({}, {}) (.ok (some (.object 10)))
      ({}, settled) := Routine.returns_of_advance rfl
  have hobject : Life [⟨object, 1⟩, ⟨misfit, 1⟩] settled := .serve (.serve .new hfault) hstored
  refine ⟨_, hobject, ?_⟩
  rintro served hmem ⟨entry, hallocates, -⟩
  simp only [List.mem_cons, List.not_mem_nil, or_false] at hmem
  obtain rfl | rfl := hmem <;> cases hallocates

/-- An array is allocated behind an object, after an insertion at the last offset has unwound. -/
theorem allocate_fresh_settled :
    ∃ log after, Life log settled ∧
      Routine.Returns (Beside Nobody) (Errand.store (.allocate (.array (.ofStorage #[])))).call
        ({}, settled) (.ok (some (.array 11))) ({}, after) ∧
      settled.Fresh (.array (.ofStorage #[])) (.array 11) after := by
  obtain ⟨log, hlife, hspared⟩ := life_settled
  have hreturns : Routine.Returns (Beside Nobody)
      (Errand.store (.allocate (.array (.ofStorage #[])))).call ({}, settled)
      (.ok (some (.array 11)))
      ({}, ({ settled with nextOffset := 12 } : Heap).putArray 11 (.ofStorage #[])) :=
    Routine.returns_of_advance rfl
  exact ⟨log, _, hlife, hreturns, allocate_fresh hlife hspared hreturns⟩

/-- An object at offset 0, and one at the last offset but one. -/
def crammed : Heap :=
  (({} : Heap).putObject 0 ⟨#[some (.array 5)]⟩).putObject 0xFFFFFFFFFFFFFFFE {}

/-- An allocation takes the last offset and faults, after which the counter starts over. -/
theorem life_crammed : ∃ log, Life log { crammed with nextOffset := 0 } := by
  have hfirst : Routine.Returns (Beside Nobody)
      (Errand.store (.insert 0 (.object ⟨#[some (.array 5)]⟩))).call ({}, {})
      (.ok (some (.object 0))) ({}, ({} : Heap).putObject 0 ⟨#[some (.array 5)]⟩) :=
    Routine.returns_of_advance rfl
  have hsecond : Routine.Returns (Beside Nobody)
      (Errand.store (.insert 0xFFFFFFFFFFFFFFFE (.object {}))).call
      ({}, ({} : Heap).putObject 0 ⟨#[some (.array 5)]⟩)
      (.ok (some (.object 0xFFFFFFFFFFFFFFFE)))
      ({}, { crammed with nextOffset := 0xFFFFFFFFFFFFFFFF }) :=
    Routine.returns_of_advance rfl
  have hspent : Routine.Returns (Beside Nobody) (Errand.store (.allocate (.object {}))).call
      ({}, { crammed with nextOffset := 0xFFFFFFFFFFFFFFFF }) (.error .addOverflow)
      ({}, { crammed with nextOffset := 0 }) :=
    Routine.returns_of_advance rfl
  exact ⟨_, .serve (.serve (.serve .new hfirst) hsecond) hspent⟩

/-- The allocation after that is given offset 0, and overwrites the object there. -/
theorem allocate_overwrites :
    ∃ log before after,
      Life log before ∧
      Routine.Returns (Beside Nobody) (Errand.store (.allocate (.object {}))).call ({}, before)
        (.ok (some (.object 0))) ({}, after) ∧
      before.entryAt? (.object 0) = some (.object ⟨#[some (.array 5)]⟩) ∧
      after.entryAt? (.object 0) = some (.object {}) := by
  obtain ⟨log, hlife⟩ := life_crammed
  exact ⟨log, _, ({ crammed with nextOffset := 1 } : Heap).putObject 0 {}, hlife,
    Routine.returns_of_advance rfl, rfl, rfl⟩

end MarkSweep.Heap
