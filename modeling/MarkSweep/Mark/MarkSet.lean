import MarkSweep.Heap.Store
import MarkSweep.Thread
import Std.Data.ExtTreeSet

namespace MarkSweep

/-- A set of offsets; two sets with the same members are equal. -/
abbrev OffsetSet := Std.ExtTreeSet Offset

/-- The kinds of marked entries. -/
inductive EntryKind
  | object
  | array
deriving DecidableEq, Repr

/-- The marked objects and the marked arrays. -/
structure Marks where
  objects : OffsetSet := ∅
  arrays : OffsetSet := ∅
deriving DecidableEq

/-- Marks that no longer change: the entries that a sweep has to keep. -/
abbrev LiveSet := Marks

namespace Marks

def ofKind (marks : Marks) : EntryKind → OffsetSet
  | .object => marks.objects
  | .array => marks.arrays

def setKind (marks : Marks) (kind : EntryKind) (offsets : OffsetSet) : Marks :=
  match kind with
  | .object => { marks with objects := offsets }
  | .array => { marks with arrays := offsets }

def contains (marks : Marks) : Ref → Bool
  | .object offset => marks.objects.contains offset
  | .array offset => marks.arrays.contains offset

/-- Marks an entry; the answer is whether it was unmarked before. -/
def insert (marks : Marks) (ref : Ref) : Bool × Marks :=
  (!marks.contains ref,
    match ref with
    | .object offset => { marks with objects := marks.objects.insert offset }
    | .array offset => { marks with arrays := marks.arrays.insert offset })

def size (marks : Marks) : Nat := marks.objects.size + marks.arrays.size

/-- Marks an entry at the level of the mark sets. -/
def mark (ref : Ref) : Call Marks Bool :=
  .guarded .marks <| .atomic (·.insert ref)

/-- Whether an entry is marked, read at the level of the mark sets. -/
def isMarked (ref : Ref) : Call Marks Bool :=
  .guarded .marks <| .read (·.contains ref)

def countKind (kind : EntryKind) : Call Marks Nat :=
  .guarded .marks <| .read fun marks => (marks.ofKind kind).size

def clearKind (kind : EntryKind) : Call Marks Unit :=
  .guarded .marks <| .update (·.setKind kind ∅)

/-- Moves the marks of one kind out and leaves none behind. -/
def takeKind (kind : EntryKind) : Call Marks OffsetSet :=
  .guarded .marks <| .atomic fun marks => (marks.ofKind kind, marks.setKind kind ∅)

/-- Forgets every mark, objects first. -/
def clear : Call Marks Unit := do
  clearKind .object
  clearKind .array

/-- Moves every mark out, objects first. -/
def freeze : Call Marks LiveSet := do
  let objects ← takeKind .object
  let arrays ← takeKind .array
  return ⟨objects, arrays⟩

/-- Of several threads that mark an entry, the one learns that it was new that finds it unmarked. -/
@[simp] theorem insert_fst (marks : Marks) (ref : Ref) :
    (marks.insert ref).1 = !marks.contains ref := rfl

/-- A mark adds its own entry and no other. -/
theorem contains_insert (marks : Marks) (ref other : Ref) :
    (marks.insert ref).2.contains other = (decide (ref = other) || marks.contains other) := by
  rw [Bool.eq_iff_iff]
  cases ref <;> cases other <;> simp [insert, contains, Std.ExtTreeSet.contains_insert]

end Marks

end MarkSweep
