import MarkSweep.Mark.MarkSet
import MarkSweep.Total

namespace MarkSweep

/-- What one slot costs a marker that has still to visit it. -/
def slotWeight : Nat := 3

/-- What an entry with these slots costs a marker that has still to descend into it. -/
def entryWeight (cells : List Slot) : Nat := slotWeight * cells.length + 1

/-- The weight of the entries of a container whose offsets are not in `marked`. It never grows when
an entry is marked or erased. -/
def unmarkedWeight {α : Type} [HasSlots α] (entries : Container α) (marked : OffsetSet) : Nat :=
  total (fun pair => entryWeight (slots pair.2))
    (entries.toList.filter fun pair => !marked.contains pair.1)

variable {α : Type} [HasSlots α]

/-- Marking an entry that was unmarked takes its weight away. -/
theorem unmarkedWeight_insert_add {entries : Container α} {marked : OffsetSet} {offset : Offset}
    {entry : α} (hentry : entries[offset]? = some entry)
    (hnew : marked.contains offset = false) :
    unmarkedWeight entries (marked.insert offset) + entryWeight (slots entry) ≤
      unmarkedWeight entries marked := by
  refine total_filter_add_le (fun pair => entryWeight (slots pair.2)) (offset, entry)
    ?_ ?_ ?_ ?_
  · rintro ⟨other, _⟩
    simp +contextual [Std.ExtTreeSet.contains_insert]
  · simpa using hnew
  · simp [Std.ExtTreeSet.contains_insert]
  · exact Std.ExtTreeMap.mem_toList_iff_getElem?_eq_some.2 hentry

/-- A larger set of marks leaves no more weight. -/
theorem unmarkedWeight_insert_le (entries : Container α) (marked : OffsetSet) (offset : Offset) :
    unmarkedWeight entries (marked.insert offset) ≤ unmarkedWeight entries marked := by
  refine total_filter_le (fun pair : Offset × α => entryWeight (slots pair.2)) ?_ _
  rintro ⟨other, _⟩
  simp +contextual [Std.ExtTreeSet.contains_insert]

/-- Erasing entries leaves no more weight. -/
theorem unmarkedWeight_filter_le (entries : Container α) (marked : OffsetSet)
    (keep : Offset → α → Bool) :
    unmarkedWeight (entries.filter keep) marked ≤ unmarkedWeight entries marked := by
  unfold unmarkedWeight
  rw [Std.ExtTreeMap.toList_filter, List.filter_filter]
  refine total_filter_le (fun pair : Offset × α => entryWeight (slots pair.2)) ?_ _
  rintro ⟨other, _⟩
  simp +contextual

end MarkSweep
