import MarkSweep.Text.Blank

namespace MarkSweep

/-- The collection algorithms. -/
inductive Policy
  /-- Stop every mutator, mark what the roots reach, erase the rest. -/
  | markAndSweep
deriving DecidableEq, Repr

namespace Policy

/-- The policy of a collector that was not told otherwise. -/
def standard : Policy := markAndSweep

def name : Policy → String
  | markAndSweep => "mark-and-sweep"

/-- A policy is displayed by its name. -/
instance : ToString Policy := ⟨name⟩

def render : Policy → String
  | markAndSweep => "MarkAndSweep"

/-- A name as it is compared: without the blanks around it, ASCII letters in lower case. -/
def normalize (text : String) : String :=
  String.ofList ((Text.trimBlanks text.toList).map Char.toLower)

/-- The policy that `text` names, or else the normalized text. -/
def parse (text : String) : Except String Policy :=
  let key := normalize text
  if key = "mark-and-sweep" ∨ key = "mark_and_sweep" ∨ key = "ms" then .ok markAndSweep
  else .error key

/-- The wording of the refusal of an unknown name. -/
def unknownMessage (key : String) : String := "unknown gc policy: " ++ key

end Policy

end MarkSweep
