namespace MarkSweep

/-- The name of a heap entry: the key of every container and of every mark set. -/
abbrev Offset := UInt64

/-- A typed reference to a heap entry. -/
inductive Ref
  | object (offset : Offset)
  | array (offset : Offset)
deriving DecidableEq, Repr

namespace Ref

def offset : Ref → Offset
  | object o | array o => o

def isObject : Ref → Bool
  | object _ => true
  | array _ => false

def isArray : Ref → Bool
  | object _ => false
  | array _ => true

/-- The diagnostic text: the kind and the offset. -/
def render : Ref → String
  | object o => "Object(" ++ toString o.toNat ++ ")"
  | array o => "Array(" ++ toString o.toNat ++ ")"

end Ref

/-- A root or field slot; `none` is the null reference. -/
abbrev Slot := Option Ref

/-- Values whose outgoing slots can be listed, in the order in which a marker visits them. Null
slots are listed too: leaving out a slot that holds a reference would lose a live entry. -/
class HasSlots (α : Type) where
  /-- Every slot of the value. -/
  slots : α → List Slot

export HasSlots (slots)

instance : HasSlots Slot := ⟨fun slot => [slot]⟩

instance : HasSlots (List Slot) := ⟨id⟩

instance : HasSlots (Array Slot) := ⟨Array.toList⟩

@[simp] theorem slots_slot (slot : Slot) : slots slot = [slot] := rfl

@[simp] theorem slots_list (cells : List Slot) : slots cells = cells := rfl

@[simp] theorem slots_array (cells : Array Slot) : slots cells = cells.toList := rfl

end MarkSweep
