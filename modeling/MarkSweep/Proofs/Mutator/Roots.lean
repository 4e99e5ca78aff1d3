import MarkSweep.Proofs.Company.Call
import MarkSweep.Proofs.Containers
import MarkSweep.Proofs.Cycle.Scan
import MarkSweep.Proofs.Mutator.Heap

namespace MarkSweep

open Call

variable {t : Thread} {value slot : Slot}

theorem mem_nullCells {count : Nat} {cells : Array Slot} (hcells : nullCells count = .ok cells)
    (hmem : slot ∈ cells.toList) : slot = none := by
  unfold nullCells at hcells
  cases hcapacity : checkCapacity count cellBytes with
  | error fault =>
    rw [hcapacity] at hcells
    cases hcells
  | ok _ =>
    rw [hcapacity] at hcells
    cases hcells
    rw [Array.toList_replicate] at hmem
    exact List.eq_of_mem_replicate hmem

theorem Frame.mem_row_nulls {operands locals : Nat} {below : Option FrameId} {frame : Frame}
    {row : FrameRow} (hframe : nulls operands locals below = .ok frame)
    (hmem : slot ∈ (frame.row row).toList) : slot = none := by
  unfold nulls at hframe
  cases hoperands : nullCells operands with
  | error fault =>
    rw [hoperands] at hframe
    cases hframe
  | ok cells =>
    cases hlocals : nullCells locals with
    | error fault =>
      rw [hoperands, hlocals] at hframe
      cases hframe
    | ok cells' =>
      rw [hoperands, hlocals] at hframe
      cases hframe
      cases row with
      | operands => exact mem_nullCells hoperands hmem
      | locals => exact mem_nullCells hlocals hmem

namespace Frames

theorem mem_row_setRow {frames : Frames} {id other : FrameId} {row row' : FrameRow} {index : Nat}
    (hmem : slot ∈ (frames.setRow id row index value).2.row other row') :
    slot = value ∨ slot ∈ frames.row other row' := by
  unfold setRow at hmem
  split at hmem
  · next frame hframe =>
    obtain ⟨old, hold, hset⟩ := Option.bind_eq_some_iff.1 hframe
    have hlt : id < frames.size := (Array.getElem?_eq_some_iff.1 hold).1
    unfold Frames.row at hmem ⊢
    rw [Array.getElem?_setIfInBounds] at hmem
    by_cases heq : id = other
    · subst heq
      rw [if_pos rfl, if_pos hlt] at hmem
      rw [hold]
      cases row <;> cases row' <;> obtain ⟨cells, hcells, rfl⟩ := Option.map_eq_some_iff.1 hset
      · exact mem_setCell? hcells hmem
      · exact .inr hmem
      · exact .inr hmem
      · exact mem_setCell? hcells hmem
    · rw [if_neg heq] at hmem
      exact .inr hmem
  · exact .inr hmem

/-- The cells of a new frame are null. -/
theorem mem_row_push {frames : Frames} {stack : CallStack} {operands locals : Nat} {id : FrameId}
    {row : FrameRow} (hmem : slot ∈ (frames.push stack operands locals).2.row id row) :
    slot = none ∨ slot ∈ frames.row id row := by
  unfold push at hmem
  split at hmem
  · next frame hframe =>
    unfold Frames.row at hmem ⊢
    rw [Array.getElem?_push] at hmem
    split at hmem
    · next found hfound =>
      split at hfound
      · cases hfound
        exact .inl (Frame.mem_row_nulls hframe hmem)
      · rw [hfound]
        exact .inr hmem
    · cases hmem
  · exact .inr hmem

theorem meets_writeRow {frames : Frames} (hheld : t.held = []) (id : FrameId) (row : FrameRow)
    (index : Nat) (value : Slot) :
    Meets Nobody True (fun before => before = frames) t (writeRow id row index value)
      (Yields t fun _ after => after = (frames.setRow id row index value).2) := by
  refine meets_guarded_atomic (Thread.enter_of_held_nil hheld) (stable_nobody _)
    (fun _ => stable_nobody _) ?_
  intro before hbefore
  rw [hbefore]

/-- The frame that is pushed next has no cells yet. -/
theorem row_size (frames : Frames) (row : FrameRow) : frames.row frames.size row = [] := by
  unfold Frames.row
  rw [Array.getElem?_eq_none (Nat.le_refl _)]

/-- A stack that was pushed has the new frame and those that it had. -/
theorem mem_push {frames frames' : Frames} {stack stack' : CallStack}
    {answer : Except Fault FrameId} {operands locals : Nat} {id : FrameId}
    (hpush : frames.push stack operands locals = ((answer, stack'), frames'))
    (hmem : id ∈ stack') : id = frames.size ∨ id ∈ stack := by
  unfold push at hpush
  split at hpush
  · cases hpush
    exact List.mem_cons.1 hmem
  · cases hpush
    cases hmem

end Frames

namespace MethodArea

theorem mem_staticSlots_setStatic {area : MethodArea} {id other : ClassId} {key : Nat}
    (hmem : slot ∈ (area.setStatic id key value).staticSlots other) :
    slot = value ∨ slot ∈ area.staticSlots other := by
  unfold staticSlots setStatic at *
  simp only [Array.getElem?_modify] at hmem
  by_cases heq : id = other
  · subst heq
    rw [if_pos rfl] at hmem
    cases hinfo : area.classes[id]? with
    | none =>
      rw [hinfo] at hmem
      cases hmem
    | some info =>
      rw [hinfo] at hmem
      obtain ⟨key', hget⟩ := (mem_values_iff _ _).1 hmem
      rw [Std.ExtTreeMap.getElem?_insert] at hget
      split at hget
      · exact .inl (Option.some.inj hget).symm
      · exact .inr ((mem_values_iff _ _).2 ⟨key', hget⟩)
  · rw [if_neg heq] at hmem
    exact .inr hmem

theorem meets_writeStatic {area : MethodArea} (hheld : t.held = []) (id : ClassId) (key : Nat)
    (value : Slot) :
    Meets Nobody True (fun before => before = area) t (writeStatic id key value)
      (Yields t fun _ after => after = area.setStatic id key value) := by
  refine meets_guarded_atomic (Thread.enter_of_held_nil hheld) (stable_nobody _)
    (fun _ => stable_nobody _) ?_
  intro before hbefore
  rw [hbefore]

/-- To load a class adds the static fields that it has already. -/
theorem mem_staticSlots_load {area : MethodArea} {info : ClassInfo} {id : ClassId}
    (hmem : slot ∈ (area.load info).2.staticSlots id) :
    slot ∈ info.staticSlots ∨ slot ∈ area.staticSlots id := by
  unfold staticSlots load at *
  simp only [Array.getElem?_push] at hmem
  split at hmem
  · next found hfound =>
    split at hfound
    · cases hfound
      exact .inl hmem
    · rw [hfound]
      exact .inr hmem
  · cases hmem

/-- After a class is loaded, it is loaded and so are those that were and have another name. -/
theorem mem_loadedClasses_load {area : MethodArea} {info : ClassInfo} {id : ClassId}
    (hmem : id ∈ (area.load info).2.loadedClasses) :
    id = area.classes.size ∨ id ∈ area.loadedClasses := by
  obtain ⟨other, hget⟩ := (mem_values_iff _ _).1 hmem
  simp only [load, Std.ExtTreeMap.getElem?_insert] at hget
  split at hget
  · exact .inl (Option.some.inj hget).symm
  · exact .inr ((mem_values_iff _ _).2 ⟨other, hget⟩)

/-- The class that is loaded next has no static fields yet. -/
theorem staticSlots_size (area : MethodArea) : area.staticSlots area.classes.size = [] := by
  unfold staticSlots
  rw [Array.getElem?_eq_none (Nat.le_refl _)]

end MethodArea

namespace World

/-- The roots are what the frames and the static fields hold. -/
theorem mem_roots {world : World} {callStacks : List CallStack} :
    slot ∈ world.roots callStacks ↔
      (∃ frame ∈ callStacks.flatten, ∃ row, slot ∈ world.frames.row frame row) ∨
        ∃ id ∈ world.methods.loadedClasses, slot ∈ world.methods.staticSlots id := by
  rw [roots, rowSlots, rootRows, List.flatMap_append, List.mem_append, List.flatMap_assoc,
    List.mem_flatMap, staticRows, List.flatMap_map, List.mem_flatMap]
  refine or_congr (exists_congr fun frame => and_congr_right fun _ => ?_) Iff.rfl
  simp only [List.flatMap_cons, List.flatMap_nil, List.append_nil, List.mem_append, rootSlots]
  constructor
  · intro hmem
    obtain hoperand | hlocal := hmem
    · exact ⟨.operands, hoperand⟩
    · exact ⟨.locals, hlocal⟩
  · intro hmem
    obtain ⟨row, hmem⟩ := hmem
    cases row with
    | operands => exact .inl hmem
    | locals => exact .inr hmem

/-- Fewer frames have no more roots. -/
theorem roots_subset {world : World} {callStacks callStacks' : List CallStack}
    (hsub : callStacks'.flatten ⊆ callStacks.flatten) :
    world.roots callStacks' ⊆ world.roots callStacks := by
  intro slot hmem
  rw [mem_roots] at hmem ⊢
  exact hmem.imp (fun hframe => hframe.imp fun frame hslot => ⟨hsub hslot.1, hslot.2⟩) id

/-- What is written into a cell may become a root, and nothing else. -/
theorem mem_roots_setRow {world : World} {callStacks : List CallStack} {id : FrameId}
    {row : FrameRow} {index : Nat}
    (hmem : slot ∈ { world with frames := (world.frames.setRow id row index value).2 }.roots
      callStacks) : slot = value ∨ slot ∈ world.roots callStacks := by
  rw [mem_roots] at hmem ⊢
  obtain ⟨frame, hframe, row', hslot⟩ | hstatic := hmem
  · exact (Frames.mem_row_setRow hslot).imp_right fun hold => .inl ⟨frame, hframe, row', hold⟩
  · exact .inr (.inr hstatic)

/-- What is written into a static field may become a root, and nothing else. -/
theorem mem_roots_setStatic {world : World} {callStacks : List CallStack} {id : ClassId}
    {key : Nat}
    (hmem : slot ∈ { world with methods := world.methods.setStatic id key value }.roots
      callStacks) : slot = value ∨ slot ∈ world.roots callStacks := by
  rw [mem_roots] at hmem ⊢
  obtain hframe | ⟨other, hloaded, hslot⟩ := hmem
  · exact .inr (.inl hframe)
  · exact (MethodArea.mem_staticSlots_setStatic hslot).imp_right fun hold =>
      .inr ⟨other, hloaded, hold⟩

/-- To load a class adds no root but what its static fields hold. -/
theorem mem_roots_load {world : World} {callStacks : List CallStack} {info : ClassInfo}
    (hmem : slot ∈ { world with methods := (world.methods.load info).2 }.roots callStacks) :
    slot ∈ info.staticSlots ∨ slot ∈ world.roots callStacks := by
  rw [mem_roots] at hmem ⊢
  obtain hframe | ⟨other, hloaded, hslot⟩ := hmem
  · exact .inr (.inl hframe)
  obtain hpreset | hslot := MethodArea.mem_staticSlots_load hslot
  · exact .inl hpreset
  obtain rfl | hloaded := MethodArea.mem_loadedClasses_load hloaded
  · rw [MethodArea.staticSlots_size] at hslot
    cases hslot
  · exact .inr (.inr ⟨other, hloaded, hslot⟩)

/-- A new frame adds no root but null. -/
theorem mem_roots_push {world : World} {callStacks : List CallStack} {stack stack' : CallStack}
    {frames : Frames} {answer : Except Fault FrameId} {i operands locals : Nat}
    (hstack : callStacks[i]? = some stack)
    (hpush : world.frames.push stack operands locals = ((answer, stack'), frames))
    (hmem : slot ∈ { world with frames }.roots (callStacks.set i stack')) :
    slot = none ∨ slot ∈ world.roots callStacks := by
  rw [mem_roots] at hmem ⊢
  obtain ⟨frame, hframe, row, hslot⟩ | hstatic := hmem
  · have hframes : (world.frames.push stack operands locals).2 = frames := congrArg Prod.snd hpush
    have hslot : slot ∈ frames.row frame row := hslot
    rw [← hframes] at hslot
    obtain hnull | hold := Frames.mem_row_push hslot
    · exact .inl hnull
    refine .inr (.inl ⟨frame, ?_, row, hold⟩)
    obtain ⟨other, hother, hin⟩ := List.mem_flatten.1 hframe
    obtain hother | rfl := List.mem_or_eq_of_mem_set hother
    · exact List.mem_flatten.2 ⟨other, hother, hin⟩
    obtain rfl | hbelow := Frames.mem_push hpush hin
    · rw [Frames.row_size] at hold
      cases hold
    · exact List.mem_flatten.2 ⟨stack, List.mem_of_getElem? hstack, hbelow⟩
  · exact .inr (.inr hstatic)

end World

end MarkSweep
