import MarkSweep.Cycle.Job
import MarkSweep.Proofs.Containers
import MarkSweep.Proofs.Mutator.Deposits

namespace MarkSweep

namespace ArrayEntry

/-- The arrays have as many elements, and as many cells. -/
structure SameShape (array array' : ArrayEntry) : Prop where
  length : array'.length = array.length
  size : array'.storage.size = array.storage.size

/-- Moreover, they have the same elements. -/
structure Alike (array array' : ArrayEntry) : Prop extends SameShape array array' where
  cells : ∀ i < array.length, array'.storage[i]? = array.storage[i]?

/-- The array with null in every cell past its elements. -/
def blank (array : ArrayEntry) : ArrayEntry where
  length := array.length
  storage := array.storage.mapIdx fun i cell => if i < array.length then cell else none
  length_le := by rw [Array.size_mapIdx]; exact array.length_le

variable {array array' : ArrayEntry}

theorem getElem?_storage_blank (array : ArrayEntry) (i : Nat) :
    array.blank.storage[i]? =
      array.storage[i]?.map fun cell => if i < array.length then cell else none :=
  Array.getElem?_mapIdx

@[simp] theorem size_storage_blank (array : ArrayEntry) :
    array.blank.storage.size = array.storage.size :=
  Array.size_mapIdx

@[simp] theorem length_blank (array : ArrayEntry) : array.blank.length = array.length := rfl

theorem eq_of_cells (hlength : array'.length = array.length)
    (hcells : ∀ i : Nat, array'.storage[i]? = array.storage[i]?) : array' = array := by
  obtain ⟨length, storage, hle⟩ := array
  obtain ⟨length', storage', hle'⟩ := array'
  obtain rfl : length' = length := hlength
  obtain rfl : storage' = storage := Array.ext_getElem? hcells
  rfl

/-- Two arrays differ in hidden cells only if they are the same when blank. -/
theorem alike_iff_blank_eq : array.Alike array' ↔ array'.blank = array.blank := by
  constructor
  · intro halike
    refine eq_of_cells halike.length fun i => ?_
    rw [getElem?_storage_blank, getElem?_storage_blank, halike.length]
    by_cases hi : i < array.length
    · rw [halike.cells i hi]
    · simp only [if_neg hi]
      by_cases hsize : i < array.storage.size
      · rw [Array.getElem?_eq_getElem hsize, Array.getElem?_eq_getElem (halike.size ▸ hsize)]
        rfl
      · rw [Array.getElem?_eq_none (Nat.le_of_not_lt hsize),
          Array.getElem?_eq_none (halike.size ▸ Nat.le_of_not_lt hsize)]
  · intro hblank
    have hlength := congrArg ArrayEntry.length hblank
    have hstorage := congrArg ArrayEntry.storage hblank
    rw [length_blank, length_blank] at hlength
    refine ⟨⟨hlength, ?_⟩, ?_⟩
    · simpa only [size_storage_blank] using congrArg Array.size hstorage
    · intro i hi
      have hcell := congrArg (·[i]?) hstorage
      simp only [getElem?_storage_blank, if_pos hi, hlength, Option.map_id_fun', id_eq] at hcell
      exact hcell

@[simp] theorem elements_blank (array : ArrayEntry) : array.blank.elements = array.elements := by
  refine List.ext_getElem? fun i => ?_
  simp only [elements, List.getElem?_take, length_blank, Array.getElem?_toList,
    getElem?_storage_blank]
  by_cases hi : i < array.length
  · simp only [if_pos hi, Option.map_id_fun', id_eq]
  · simp only [if_neg hi]

@[simp] theorem released_blank (array : ArrayEntry) : array.blank.released = array.released :=
  congrArg List.length array.elements_blank

/-- An element can be written in a blank array, and no other cell. -/
theorem setElement?_blank (array : ArrayEntry) (index : Nat) (value : Slot) :
    array.blank.setElement? index value = (array.setElement? index value).map blank := by
  unfold setElement?
  by_cases hindex : index < array.length
  · rw [dif_pos hindex, dif_pos (show index < array.blank.length from hindex), Option.map_some]
    refine congrArg some (eq_of_cells rfl fun i => ?_)
    rw [getElem?_storage_blank]
    simp only [Array.getElem?_set, getElem?_storage_blank]
    by_cases hi : index = i
    · subst hi
      simp [hindex]
    · simp only [if_neg hi]
  · rw [dif_neg hindex, dif_neg (show ¬index < array.blank.length from hindex)]
    rfl

/-- No element that is overwritten makes an array longer or shorter. -/
theorem sameShape_of_setElement? {index : Nat} {value : Slot}
    (hset : array.setElement? index value = some array') : array.SameShape array' := by
  unfold setElement? at hset
  split at hset
  · cases hset
    refine ⟨rfl, ?_⟩
    rw [Array.size_set]
  · cases hset

/-- An array that counts more elements than there are cells is not made. -/
theorem ofParts_eq_error_iff {length : Nat} {storage : Array Slot} {fault : Fault} :
    ofParts length storage = .error fault ↔
      storage.size < length ∧ fault = .lengthExceedsStorage length storage.size := by
  unfold ofParts
  split
  · next hle => simp [Nat.not_lt_of_le hle]
  · next hlt => simp [Nat.lt_of_not_le hlt, eq_comm]

/-- A cell past the elements is not overwritten, whether or not there is one. -/
theorem setElement?_eq_none {index : Nat} (hindex : array.length ≤ index) (value : Slot) :
    array.setElement? index value = none :=
  dif_neg (Nat.not_lt_of_le hindex)

end ArrayEntry

namespace Container

variable {α γ : Type}

theorem values_map (f : α → γ) (entries : Container α) :
    (entries.map fun _ => f).values = entries.values.map f := by
  rw [values_eq_map_toList, values_eq_map_toList, Std.ExtTreeMap.toList_map, List.map_map,
    List.map_map]
  rfl

theorem filter_map (f : α → γ) (entries : Container α) (keep : Offset → Bool) :
    ((entries.map fun _ => f).filter fun offset _ => keep offset) =
      (entries.filter fun offset _ => keep offset).map fun _ => f := by
  refine Std.ExtTreeMap.ext_getElem? fun offset => ?_
  rw [Std.ExtTreeMap.getElem?_filter', Std.ExtTreeMap.getElem?_map, Std.ExtTreeMap.getElem?_map,
    Std.ExtTreeMap.getElem?_filter']
  cases entries[offset]? with
  | none => rfl
  | some entry =>
    rw [Option.map_some, Option.filter_some, Option.filter_some, apply_ite (Option.map f)]
    rfl

/-- A function may be applied to an entry before it is stored or after. -/
theorem map_insert (f : α → γ) (entries : Container α) (offset : Offset) (entry : α) :
    ((entries.insert offset entry).map fun _ => f) =
      (entries.map fun _ => f).insert offset (f entry) := by
  refine Std.ExtTreeMap.ext_getElem? fun other => ?_
  rw [Std.ExtTreeMap.getElem?_map, Std.ExtTreeMap.getElem?_insert, Std.ExtTreeMap.getElem?_insert,
    Std.ExtTreeMap.getElem?_map, apply_ite (Option.map f)]
  rfl

/-- The payloads that are given up and those that stay are mapped alike. -/
theorem eraseDead_map (f : α → γ) (entries : Container α) (isLive : Offset → Bool) :
    eraseDead (entries.map fun _ => f) isLive =
      Prod.map (List.map f) (·.map fun _ => f) (eraseDead entries isLive) := by
  simp only [eraseDead, filter_map f entries, values_map]
  rfl

end Container

namespace Heap

/-- The heaps hold the same, but for what arrays have in the cells past their elements. -/
structure Alike (heap heap' : Heap) : Prop where
  objects : heap'.objects = heap.objects
  arrays : ∀ offset : Offset,
    Option.Rel ArrayEntry.Alike heap.arrays[offset]? heap'.arrays[offset]?
  monitors : heap'.monitors = heap.monitors
  nextOffset : heap'.nextOffset = heap.nextOffset

/-- The heap with null in every cell past the elements of its array. -/
def blank (heap : Heap) : Heap :=
  { heap with arrays := heap.arrays.map fun _ array => array.blank }

variable {heap heap' : Heap}

theorem getElem?_arrays_blank (heap : Heap) (offset : Offset) :
    heap.blank.arrays[offset]? = heap.arrays[offset]?.map ArrayEntry.blank :=
  Std.ExtTreeMap.getElem?_map

theorem alike_iff_blank_eq : heap.Alike heap' ↔ heap'.blank = heap.blank := by
  have hentries : (∀ offset : Offset,
      Option.Rel ArrayEntry.Alike heap.arrays[offset]? heap'.arrays[offset]?) ↔
        heap'.blank.arrays = heap.blank.arrays := by
    rw [Std.ExtTreeMap.ext_getElem?_iff]
    refine forall_congr' fun offset => ?_
    rw [getElem?_arrays_blank, getElem?_arrays_blank]
    cases heap.arrays[offset]? <;> cases heap'.arrays[offset]? <;>
      simp [ArrayEntry.alike_iff_blank_eq]
  constructor
  · intro halike
    have harrays := hentries.1 halike.arrays
    simp only [blank] at harrays ⊢
    rw [harrays, halike.objects, halike.monitors, halike.nextOffset]
  · intro hblank
    have hall := Heap.mk.inj hblank
    exact ⟨hall.1, hentries.2 (congrArg Heap.arrays hblank), hall.2.2.1, hall.2.2.2⟩

/-- A marker comes by the same slots in a blank heap. -/
@[simp] theorem slotsOf?_blank (heap : Heap) (ref : Ref) :
    heap.blank.slotsOf? ref = heap.slotsOf? ref := by
  cases ref with
  | object offset => rfl
  | array offset =>
    simp only [slotsOf?, getElem?_arrays_blank, Option.map_map]
    exact congrArg (Option.map · _) (funext ArrayEntry.elements_blank)

@[simp] theorem contains_blank (heap : Heap) (ref : Ref) :
    heap.blank.contains ref = heap.contains ref := by
  rw [← slotsOf?_isSome, ← slotsOf?_isSome, slotsOf?_blank]

@[simp] theorem stats_blank (heap : Heap) : heap.blank.stats = heap.stats := by
  simp only [stats, blank, Std.ExtTreeMap.size_map]

theorem blank_putArray (heap : Heap) (offset : Offset) (array : ArrayEntry) :
    heap.blank.putArray offset array.blank = (heap.putArray offset array).blank := by
  simp only [putArray, blank, Container.map_insert]

theorem blank_setElement (heap : Heap) (offset : Offset) (index : Nat) (value : Slot) :
    heap.blank.setElement offset index value =
      Prod.map id blank (heap.setElement offset index value) := by
  unfold setElement
  rw [getElem?_arrays_blank]
  cases harray : heap.arrays[offset]? with
  | none => rfl
  | some array =>
    simp only [Option.map_some, Option.bind_eq_bind, Option.bind_some, ArrayEntry.setElement?_blank]
    cases array.setElement? index value with
    | none => rfl
    | some array' => exact congrArg (Prod.mk true) (blank_putArray heap offset array')

/-- A field is none of the hidden cells. -/
theorem blank_setField (heap : Heap) (offset : Offset) (index : Nat) (value : Slot) :
    heap.blank.setField offset index value =
      Prod.map id blank (heap.setField offset index value) := by
  simp only [setField, blank]
  split <;> rfl

theorem blank_withMonitor {α : Type} (heap : Heap) (offset : Offset)
    (f : Monitor → Except Fault α × Monitor) :
    heap.blank.withMonitor offset f = Prod.map id blank (heap.withMonitor offset f) := by
  simp only [withMonitor, blank]
  split <;> rfl

/-- A sweep erases the same entries, and releases as many elements. -/
theorem blank_erase (heap : Heap) (live : LiveSet) (region : Region) :
    heap.blank.erase live region = Prod.map id blank (heap.erase live region) := by
  cases region with
  | objects | monitors => rfl
  | arrays =>
    simp only [erase, blank, Container.eraseDead_map, Prod.map, List.length_map, total_map,
      ArrayEntry.released_blank, id_eq]

/-- Hidden cells cost a marker nothing. -/
@[simp] theorem heapWeight_blank (heap : Heap) (marks : Marks) :
    Tracer.heapWeight heap.blank marks = Tracer.heapWeight heap marks := by
  have harrays : unmarkedWeight heap.blank.arrays marks.arrays =
      unmarkedWeight heap.arrays marks.arrays := by
    simp only [unmarkedWeight, blank, Std.ExtTreeMap.toList_map, List.filter_map, total_map]
    refine congrArg (total · _) (funext fun pair => ?_)
    exact congrArg entryWeight (ArrayEntry.elements_blank pair.2)
  exact congrArg (unmarkedWeight heap.objects marks.objects + ·) harrays

/-- A tracer reads elements only. -/
@[simp] theorem step_blank (thread : Thread) (heap : Heap) (marks : Marks) (tracer : Tracer) :
    tracer.step thread heap.blank marks = tracer.step thread heap marks := by
  simp only [Tracer.step, slotsOf?_blank]

/-- Every array has the shape of the one that was in its place before, unless it is new. -/
def KeepsShapes (new : ArrayEntry → Prop) (before after : Heap) : Prop :=
  ∀ (offset : Offset) (array' : ArrayEntry), after.arrays[offset]? = some array' →
    new array' ∨ ∃ array, before.arrays[offset]? = some array ∧ array.SameShape array'

section Shapes

variable {new : ArrayEntry → Prop}

theorem KeepsShapes.mono {new' : ArrayEntry → Prop} (h : heap.KeepsShapes new heap')
    (hnew : ∀ array, new array → new' array) : heap.KeepsShapes new' heap' :=
  fun offset array hget => (h offset array hget).imp_left (hnew array)

/-- What keeps its shape twice keeps its shape, also if it was new in between. -/
theorem KeepsShapes.trans {new' : ArrayEntry → Prop} {between : Heap}
    (h : heap.KeepsShapes new between) (h' : between.KeepsShapes new' heap') :
    heap.KeepsShapes (fun array => new' array ∨ ∃ made, new made ∧ made.SameShape array) heap' := by
  intro offset array hget
  obtain hnew | ⟨made, hmade, hshape⟩ := h' offset array hget
  · exact .inl (.inl hnew)
  · obtain hnew | ⟨before, hbefore, hshape'⟩ := h offset made hmade
    · exact .inl (.inr ⟨made, hnew, hshape⟩)
    · exact .inr ⟨before, hbefore, hshape.length.trans hshape'.length,
        hshape.size.trans hshape'.size⟩

theorem keepsShapes_of_arrays_eq (harrays : heap'.arrays = heap.arrays) :
    heap.KeepsShapes new heap' := by
  intro offset array hget
  exact .inr ⟨array, harrays ▸ hget, rfl, rfl⟩

theorem keepsShapes_refl (heap : Heap) : heap.KeepsShapes new heap :=
  keepsShapes_of_arrays_eq rfl

theorem keepsShapes_putArray (heap : Heap) (offset : Offset) {array : ArrayEntry}
    (harray : new array ∨
      ∃ before, heap.arrays[offset]? = some before ∧ before.SameShape array) :
    heap.KeepsShapes new (heap.putArray offset array) := by
  intro other array' hget
  change (heap.arrays.insert offset array)[other]? = some array' at hget
  rw [Std.ExtTreeMap.getElem?_insert] at hget
  split at hget
  · next heq =>
    cases hget
    rw [← Std.LawfulEqCmp.eq_of_compare heq]
    exact harray
  · exact .inr ⟨array', hget, rfl, rfl⟩

theorem keepsShapes_setElement (heap : Heap) (offset : Offset) (index : Nat) (value : Slot) :
    heap.KeepsShapes new (heap.setElement offset index value).2 := by
  unfold setElement
  split
  · next array' hset =>
    obtain ⟨array, hget, hset⟩ := Option.bind_eq_some_iff.1 hset
    exact keepsShapes_putArray heap offset
      (.inr ⟨array, hget, ArrayEntry.sameShape_of_setElement? hset⟩)
  · exact keepsShapes_refl heap

theorem keepsShapes_setField (heap : Heap) (offset : Offset) (index : Nat) (value : Slot) :
    heap.KeepsShapes new (heap.setField offset index value).2 := by
  refine keepsShapes_of_arrays_eq ?_
  unfold setField
  split <;> rfl

theorem keepsShapes_withMonitor {α : Type} (heap : Heap) (offset : Offset)
    (f : Monitor → Except Fault α × Monitor) :
    heap.KeepsShapes new (heap.withMonitor offset f).2 := by
  refine keepsShapes_of_arrays_eq ?_
  unfold withMonitor
  split <;> rfl

theorem keepsShapes_erase (heap : Heap) (live : LiveSet) (region : Region) :
    heap.KeepsShapes new (heap.erase live region).2 := by
  cases region with
  | objects | monitors => exact keepsShapes_refl heap
  | arrays =>
    intro offset array hget
    have hrestricted := Container.restricted_eraseDead heap.arrays (keeps live .arrays)
    exact .inr ⟨array, ((hrestricted.kept offset array).1 hget).1, rfl, rfl⟩

end Shapes

end Heap

end MarkSweep
