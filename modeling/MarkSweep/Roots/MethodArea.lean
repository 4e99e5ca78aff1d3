import MarkSweep.Thread
import Std.Data.ExtTreeMap

namespace MarkSweep

/-- The number of a class, in order of loading. -/
abbrev ClassId := Nat

/-- A class: its name and its static fields by index. -/
structure ClassInfo where
  name : String
  /-- The static fields that were ever set. -/
  statics : Std.ExtTreeMap Nat Slot := ∅

/-- The slots of the static fields, in the order of their indices. -/
def ClassInfo.staticSlots (info : ClassInfo) : List Slot := info.statics.values

/-- Every class that was ever loaded, and which of them are loaded now. -/
structure MethodArea where
  /-- All classes, by number. -/
  classes : Array ClassInfo := #[]
  /-- The loaded classes, by name. -/
  loaded : Std.ExtTreeMap String ClassId := ∅

namespace MethodArea

/-- Loads a class with the static fields that it has already. -/
def load (area : MethodArea) (info : ClassInfo) : ClassId × MethodArea :=
  (area.classes.size,
    ⟨area.classes.push info, area.loaded.insert info.name area.classes.size⟩)

/-- The names of the loaded classes, sorted. -/
def names (area : MethodArea) : List String := area.loaded.keys

/-- The loaded classes, in the order of their names. -/
def loadedClasses (area : MethodArea) : List ClassId := area.loaded.values

def staticSlots (area : MethodArea) (id : ClassId) : List Slot :=
  match area.classes[id]? with
  | some info => info.staticSlots
  | none => []

def setStatic (area : MethodArea) (id : ClassId) (key : Nat) (value : Slot) : MethodArea :=
  { area with
    classes := area.classes.modify id fun info =>
      { info with statics := info.statics.insert key value } }

/-- Sets a static field at the heap level of the lock order. -/
def writeStatic (id : ClassId) (key : Nat) (value : Slot) : Call MethodArea Unit :=
  .guarded .heap <| .update (·.setStatic id key value)

/-- The static field slots of a class, read at the heap level of the lock order. -/
def readStatics (id : ClassId) : Call MethodArea (List Slot) :=
  .guarded .heap <| .read (·.staticSlots id)

end MethodArea

end MarkSweep
