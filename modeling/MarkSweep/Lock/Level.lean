namespace MarkSweep

/-- The levels, outermost first. -/
inductive Level
  /-- The lock around a whole cycle. -/
  | cycle
  /-- The containers of the heap and the root slots. -/
  | heap
  | marks
deriving DecidableEq, Repr

namespace Level

/-- Place of the level in the order; a thread that holds nothing is at rank 0. -/
def rank : Level → Nat
  | cycle => 1
  | heap => 2
  | marks => 3

def name : Level → String
  | cycle => "Cycle"
  | heap => "HeapContainer"
  | marks => "MarkBitmap"

/-- Whether a lock of this level may be taken by a thread at rank `held`. -/
def mayFollow (level : Level) (held : Nat) : Bool := held ≤ level.rank

end Level

/-- The levels that one thread has entered and not yet left, the latest first. -/
abbrev Held := List Level

namespace Held

/-- The highest rank held, 0 if nothing is. -/
def rank (held : Held) : Nat := held.foldl (fun top level => max top level.rank) 0

/-- The levels held after entering `level`, unless a higher one is held. -/
def enter? (held : Held) (level : Level) : Option Held :=
  if level.mayFollow held.rank then some (level :: held) else none

/-- The levels held after leaving `level` once: its latest entry is dropped. -/
def leave (held : Held) (level : Level) : Held := held.erase level

end Held

end MarkSweep
