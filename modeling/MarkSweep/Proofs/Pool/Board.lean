import MarkSweep.Pool.Board

namespace MarkSweep

/-- The answer that a handle gives to whoever joins it, once it has one. -/
def Delivery.answer? {ρ : Type} : Delivery ρ → Option (Except Failure ρ)
  | awaited => none
  | delivered (.value result) => some (.ok result)
  | delivered (.fault payload) => some (.error (.taskFaulted payload.message))
  | lost => some (.error .poolShutDown)

/-- The answer of a group without members. -/
def Group.answer (group : Group) : Except Failure Unit :=
  match group.faults with
  | message :: _ => .error (.taskFaulted message)
  | [] => .ok ()

namespace Board

variable {ρ : Type} {board : Board ρ} {id other : Nat} {delivery : Delivery ρ} {f : Group → Group}

@[simp] theorem getElem?_tell : (board.tell id delivery).handles[other]? =
    if id = other then board.handles[id]?.map fun _ => delivery else board.handles[other]? := by
  simp [tell, Std.ExtTreeMap.getElem?_alter]

@[simp] theorem getElem?_onGroup : (board.onGroup id f).groups[other]? =
    if id = other then board.groups[id]?.map f else board.groups[other]? := by
  simp [onGroup, Std.ExtTreeMap.getElem?_alter]

@[simp] theorem getElem?_openHandle : board.openHandle.2.handles[other]? =
    if board.nextHandle = other then some .awaited else board.handles[other]? := by
  simp [openHandle, Std.ExtTreeMap.getElem?_insert]

@[simp] theorem getElem?_openGroup : board.openGroup.2.groups[other]? =
    if board.nextGroup = other then some {} else board.groups[other]? := by
  simp [openGroup, Std.ExtTreeMap.getElem?_insert]

@[simp] theorem getElem?_dropHandle : (board.dropHandle id).handles[other]? =
    if id = other then none else board.handles[other]? := by
  simp [dropHandle, Std.ExtTreeMap.getElem?_erase]

@[simp] theorem getElem?_dropGroup : (board.dropGroup id).groups[other]? =
    if id = other then none else board.groups[other]? := by
  simp [dropGroup, Std.ExtTreeMap.getElem?_erase]

end Board

end MarkSweep
