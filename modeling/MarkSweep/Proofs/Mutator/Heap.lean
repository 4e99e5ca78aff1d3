import MarkSweep.Proofs.Mutator.Deposits
import MarkSweep.Proofs.Reachability

namespace MarkSweep

/-- A cell that was written holds what was written, and the others what they held. -/
theorem mem_setCell? {cells cells' : Array Slot} {index : Nat} {value slot : Slot}
    (hset : setCell? cells index value = some cells') (hmem : slot ∈ cells'.toList) :
    slot = value ∨ slot ∈ cells.toList := by
  unfold setCell? at hset
  split at hset
  · cases hset
    rw [Array.toList_set] at hmem
    exact (List.mem_or_eq_of_mem_set hmem).symm
  · cases hset

namespace Heap

variable {heap heap' : Heap} {roots roots' : List Slot} {ref : Ref} {cells : List Slot}
  {value : Slot}

/-- No entry has come or gone, and no slot holds anything new but `value`. -/
def Overwritten (heap : Heap) (value : Slot) (heap' : Heap) : Prop :=
  ∀ ref, Option.Rel (fun cells cells' : List Slot => ∀ slot ∈ cells', slot = value ∨ slot ∈ cells)
    (heap.slotsOf? ref) (heap'.slotsOf? ref)

/-- An entry with these slots is where `ref` points to, and all others are as they were. -/
def Stored (heap : Heap) (ref : Ref) (cells : List Slot) (heap' : Heap) : Prop :=
  heap'.slotsOf? ref = some cells ∧
    ∀ other, other ≠ ref → heap'.slotsOf? other = heap.slotsOf? other

theorem Overwritten.refl (heap : Heap) (value : Slot) : heap.Overwritten value heap := by
  intro ref
  cases heap.slotsOf? ref with
  | none => exact .none
  | some cells => exact .some fun slot hmem => .inr hmem

/-- Entries stay, whatever is written into them. -/
theorem Overwritten.contains (hover : heap.Overwritten value heap')
    (hcontains : heap.contains ref = true) : heap'.contains ref = true := by
  obtain ⟨cells, hcells⟩ := exists_slotsOf? hcontains
  have hrel := hover ref
  rw [hcells] at hrel
  cases hcells' : heap'.slotsOf? ref with
  | some cells' => exact contains_of_slotsOf? hcells'
  | none =>
    rw [hcells'] at hrel
    cases hrel

/-- A slot may be overwritten with anything that is reached. -/
theorem Overwritten.intact (hover : heap.Overwritten value heap') (hintact : heap.Intact roots)
    (hvalue : ∀ ref, value = some ref → heap.Reaches roots ref) : heap'.Intact roots := by
  intro ref hreach
  refine hover.contains (hintact ref ?_)
  refine hreach.of_closed (fun ref hmem => .root hmem) ?_
  intro ref cells' hreach hcells' next hmem
  have hrel := hover ref
  rw [hcells'] at hrel
  cases hcells : heap.slotsOf? ref with
  | none =>
    rw [hcells] at hrel
    cases hrel
  | some cells =>
    rw [hcells] at hrel
    obtain hslots := Option.rel_some_some.1 hrel
    obtain heq | hold := hslots (some next) hmem
    · exact hvalue next heq.symm
    · exact .child hreach hcells hold

/-- What is stored may refer to anything that was reached, and may become a root at once. -/
theorem Stored.intact (hstored : heap.Stored ref cells heap') (hintact : heap.Intact roots)
    (hcells : ∀ next, some next ∈ cells → heap.Reaches roots next)
    (hroots : ∀ next, some next ∈ roots' → heap.Reaches roots next ∨ next = ref) :
    heap'.Intact roots' := by
  obtain ⟨hhere, hothers⟩ := hstored
  intro other hreach
  have hreached : heap.Reaches roots other ∨ other = ref := by
    refine hreach.of_closed (P := fun other => heap.Reaches roots other ∨ other = ref) hroots ?_
    intro other cells' hother hcells' next hmem
    left
    by_cases heq : other = ref
    · subst heq
      rw [hhere] at hcells'
      cases hcells'
      exact hcells next hmem
    · rw [hothers other heq] at hcells'
      exact .child (hother.resolve_right heq) hcells' hmem
  by_cases heq : other = ref
  · rw [heq]
    exact contains_of_slotsOf? hhere
  · obtain ⟨cells', hcells'⟩ := exists_slotsOf? (hintact other (hreached.resolve_right heq))
    exact contains_of_slotsOf? ((hothers other heq).trans hcells')

/-- A heap with the same slots is overwritten with anything. -/
theorem Overwritten.of_slotsOf? (hslots : ∀ ref, heap'.slotsOf? ref = heap.slotsOf? ref) :
    heap.Overwritten value heap' := by
  intro ref
  rw [hslots ref]
  exact Overwritten.refl heap value ref

theorem stored_putObject (heap : Heap) (offset : Offset) (object : ObjectEntry) :
    heap.Stored (.object offset) (slots object) (heap.putObject offset object) := by
  constructor
  · simp only [slotsOf?, putObject, Std.ExtTreeMap.getElem?_insert_self, Option.map_some]
  · intro other hne
    cases other with
    | array _ => rfl
    | object o =>
      have hoffset : offset ≠ o := fun heq => hne (heq ▸ rfl)
      simp only [slotsOf?, putObject, Std.ExtTreeMap.getElem?_insert,
        Std.LawfulEqCmp.compare_eq_iff_eq, if_neg hoffset]

theorem stored_putArray (heap : Heap) (offset : Offset) (array : ArrayEntry) :
    heap.Stored (.array offset) (slots array) (heap.putArray offset array) := by
  constructor
  · simp only [slotsOf?, putArray, Std.ExtTreeMap.getElem?_insert_self, Option.map_some]
  · intro other hne
    cases other with
    | object _ => rfl
    | array o =>
      have hoffset : offset ≠ o := fun heq => hne (heq ▸ rfl)
      simp only [slotsOf?, putArray, Std.ExtTreeMap.getElem?_insert,
        Std.LawfulEqCmp.compare_eq_iff_eq, if_neg hoffset]

/-- To store an entry again with one slot changed is to overwrite the slot. -/
theorem Stored.overwritten {cells' : List Slot} (hstored : heap.Stored ref cells' heap')
    (hcells : heap.slotsOf? ref = some cells)
    (hslots : ∀ slot ∈ cells', slot = value ∨ slot ∈ cells) : heap.Overwritten value heap' := by
  intro other
  by_cases heq : other = ref
  · rw [heq, hcells, hstored.1]
    exact .some hslots
  · rw [hstored.2 other heq]
    exact Overwritten.refl heap value other

theorem overwritten_setField (heap : Heap) (offset : Offset) (index : Nat) (value : Slot) :
    heap.Overwritten value (heap.setField offset index value).2 := by
  unfold setField
  split
  · next object hobject =>
    obtain ⟨old, hold, hset⟩ := Option.bind_eq_some_iff.1 hobject
    have hcells : heap.slotsOf? (.object offset) = some (slots old) := by
      simp only [slotsOf?, hold, Option.map_some]
    apply (stored_putObject heap offset object).overwritten hcells
    obtain ⟨fields, hfields, rfl⟩ := Option.map_eq_some_iff.1 hset
    exact fun slot hmem => mem_setCell? hfields hmem
  · exact Overwritten.refl heap value

theorem overwritten_setElement (heap : Heap) (offset : Offset) (index : Nat) (value : Slot) :
    heap.Overwritten value (heap.setElement offset index value).2 := by
  unfold setElement
  split
  · next array harray =>
    obtain ⟨old, hold, hset⟩ := Option.bind_eq_some_iff.1 harray
    have hcells : heap.slotsOf? (.array offset) = some (slots old) := by
      simp only [slotsOf?, hold, Option.map_some]
    apply (stored_putArray heap offset array).overwritten hcells
    · unfold ArrayEntry.setElement? at hset
      split at hset
      · next hindex =>
        cases hset
        intro slot hmem
        have hcell : index < old.storage.size := Nat.lt_of_lt_of_le hindex old.length_le
        change slot ∈ (old.storage.set index value hcell).toList.take old.length at hmem
        rw [Array.toList_set, List.take_set] at hmem
        exact (List.mem_or_eq_of_mem_set hmem).symm
      · cases hset
  · exact Overwritten.refl heap value

section Calls

open Call

variable {t : Thread}

/-- What is left of an allocation: the entry is stored at some offset, unless there is none left. -/
def Allocated (heap : Heap) (cells : List Slot) (t : Thread) : Post Heap Ref :=
  fun result t' after => t' = t ∧
    match result with
    | .ok ref => heap.Stored ref cells after
    | .error _ => ∀ ref, after.slotsOf? ref = heap.slotsOf? ref

instance : HasSlots Entry where
  slots
    | .object payload => slots payload
    | .array payload => slots payload

theorem stored_put (entry : Entry) (offset : Offset) (heap : Heap) :
    heap.Stored (entry.ref offset) (slots entry) (entry.put offset heap) := by
  cases entry with
  | object payload => exact stored_putObject heap offset payload
  | array payload => exact stored_putArray heap offset payload

theorem meets_allocated (entry : Entry) (t : Thread) :
    Meets Nobody True (fun before => before = heap) t (Deposit.allocate entry).call
      (heap.Allocated (slots entry) t) := by
  apply (meets_allocate heap entry t).mono_post
  rintro result t' after ⟨ht, hend⟩
  refine ⟨ht, ?_⟩
  cases result with
  | error fault =>
    intro ref
    rw [show after = heap.takeOffset.2 from hend]
    cases ref <;> rfl
  | ok ref =>
    obtain ⟨rfl, -, rfl⟩ := hend
    obtain ⟨hhere, hothers⟩ := stored_put entry heap.nextOffset
      (heap.takeOffset.2.reserve (heap.nextOffset + 1))
    refine ⟨hhere, fun other hne => (hothers other hne).trans ?_⟩
    cases other <;> rfl

theorem meets_writeField (hheld : t.held = []) (offset : Offset) (index : Nat) (value : Slot) :
    Meets Nobody True (fun before => before = heap) t (writeField offset index value)
      (Yields t fun _ after => heap.Overwritten value after) := by
  refine meets_guarded_atomic (Thread.enter_of_held_nil hheld) (stable_nobody _)
    (fun _ => stable_nobody _) ?_
  intro before hbefore
  rw [hbefore]
  exact overwritten_setField heap offset index value

theorem meets_writeElement (hheld : t.held = []) (offset : Offset) (index : Nat) (value : Slot) :
    Meets Nobody True (fun before => before = heap) t (writeElement offset index value)
      (Yields t fun _ after => heap.Overwritten value after) := by
  refine meets_guarded_atomic (Thread.enter_of_held_nil hheld) (stable_nobody _)
    (fun _ => stable_nobody _) ?_
  intro before hbefore
  rw [hbefore]
  exact overwritten_setElement heap offset index value

end Calls

end Heap

end MarkSweep
