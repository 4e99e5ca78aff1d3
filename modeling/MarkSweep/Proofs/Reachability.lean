import MarkSweep.Heap.Store

namespace MarkSweep.Heap

/-- The entries at the ends of the paths of references that begin in a slot of `roots`. A path goes
on only through entries that exist; the entry at its end may be missing. -/
inductive Reaches (heap : Heap) (roots : List Slot) : Ref → Prop
  /-- A root reaches the entry that it names. -/
  | root {ref : Ref} (hmem : some ref ∈ roots) : Reaches heap roots ref
  /-- An entry that is reached passes it on to the entries that its slots name. -/
  | child {ref next : Ref} {cells : List Slot} (hreach : Reaches heap roots ref)
      (hcells : heap.slotsOf? ref = some cells) (hmem : some next ∈ cells) :
      Reaches heap roots next

/-- Every reference that the roots reach names an entry that exists. -/
def Intact (heap : Heap) (roots : List Slot) : Prop :=
  ∀ ref, heap.Reaches roots ref → heap.contains ref = true

variable {heap heap' : Heap} {roots roots' : List Slot} {ref : Ref}

theorem contains_of_slotsOf? {cells : List Slot} (hcells : heap.slotsOf? ref = some cells) :
    heap.contains ref = true := by
  rw [← slotsOf?_isSome, hcells, Option.isSome_some]

/-- An entry that exists has slots. -/
theorem exists_slotsOf? (hcontains : heap.contains ref = true) :
    ∃ cells, heap.slotsOf? ref = some cells := by
  rw [← slotsOf?_isSome] at hcontains
  exact Option.isSome_iff_exists.1 hcontains

/-- What holds of the roots and is passed on by references holds of everything reached. -/
theorem Reaches.of_closed {P : Ref → Prop} (hroot : ∀ ref, some ref ∈ roots → P ref)
    (hchild : ∀ ref cells, P ref → heap.slotsOf? ref = some cells →
      ∀ next, some next ∈ cells → P next)
    (hreach : heap.Reaches roots ref) : P ref := by
  induction hreach with
  | root hmem => exact hroot _ hmem
  | child _ hcells hmem ih => exact hchild _ _ ih hcells _ hmem

/-- More roots reach no less. -/
theorem Reaches.mono (hsub : roots ⊆ roots') (hreach : heap.Reaches roots ref) :
    heap.Reaches roots' ref := by
  refine hreach.of_closed ?_ ?_
  · intro ref hmem
    exact .root (hsub hmem)
  · intro ref cells hreach hcells next hmem
    exact .child hreach hcells hmem

/-- Roots that are reached themselves make nothing dangle. -/
theorem Intact.of_roots (hintact : heap.Intact roots)
    (hroots : ∀ ref, some ref ∈ roots' → heap.Reaches roots ref) : heap.Intact roots' := by
  intro ref hreach
  refine hintact ref (hreach.of_closed hroots ?_)
  intro ref cells hreach hcells next hmem
  exact .child hreach hcells hmem

/-- An object and an array at one offset that refer to each other, and an object that nothing
refers to. -/
def knot : Heap :=
  ((({} : Heap).putObject 1 ⟨#[some (.array 1), none]⟩).putArray 1
    (.ofStorage #[some (.object 1)])).putObject 2 ⟨#[some (.object 2)]⟩

theorem knot_reaches (hreach : knot.Reaches [some (.object 1), some (.array 1)] ref) :
    ref = .object 1 ∨ ref = .array 1 := by
  refine hreach.of_closed (P := fun ref => ref = .object 1 ∨ ref = .array 1) (by simp) ?_
  rintro ref cells (rfl | rfl) hcells next hmem
  · have hslots : cells = [some (.array 1), none] := (Option.some.inj hcells).symm
    rw [hslots] at hmem
    exact .inr (by simpa using hmem)
  · have hslots : cells = [some (.object 1)] := (Option.some.inj hcells).symm
    rw [hslots] at hmem
    exact .inl (by simpa using hmem)

theorem knot_intact : knot.Intact [some (.object 1), some (.array 1)] := by
  intro ref hreach
  rcases knot_reaches hreach with rfl | rfl <;> decide

end MarkSweep.Heap
