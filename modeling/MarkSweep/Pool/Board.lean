import MarkSweep.Fault
import Std.Data.ExtTreeMap

namespace MarkSweep

/-- How a task ended. -/
inductive Outcome (ρ : Type)
  | value (result : ρ)
  /-- With a fault that carried this payload. -/
  | fault (payload : Payload)
deriving Repr

/-- What a handle knows of its task. -/
inductive Delivery (ρ : Type)
  /-- The task is queued or running. -/
  | awaited
  /-- The task has ended. -/
  | delivered (outcome : Outcome ρ)
  /-- The task was dropped and never ran. -/
  | lost
deriving Repr

/-- The countdown of a group. -/
structure Group where
  /-- Members that were ever accepted. -/
  spawned : Nat := 0
  /-- Accepted members that have not given up their place. -/
  pending : Nat := 0
  /-- The messages of members that faulted, the earliest first. -/
  faults : List String := []
deriving DecidableEq, Repr

def Group.render (group : Group) : String :=
  "TaskGroup \x7b spawned: " ++ toString group.spawned ++ ", .. \x7d"

/-- The number of a handle. -/
abbrev HandleId := Nat

/-- The number of a group. -/
abbrev GroupId := Nat

/-- To whom a task answers. -/
inductive Audience
  | nobody
  | handle (id : HandleId)
  | group (id : GroupId)
deriving DecidableEq, Repr

/-- All handles and groups of a pool. -/
structure Board (ρ : Type) where
  /-- The handles that were not consumed yet. -/
  handles : Std.ExtTreeMap HandleId (Delivery ρ) := ∅
  nextHandle : HandleId := 0
  /-- The groups that were not consumed yet. -/
  groups : Std.ExtTreeMap GroupId Group := ∅
  nextGroup : GroupId := 0

namespace Board

variable {ρ : Type}

/-- Makes a handle for a task that is about to be queued. -/
def openHandle (board : Board ρ) : HandleId × Board ρ :=
  (board.nextHandle,
    { board with
      handles := board.handles.insert board.nextHandle .awaited
      nextHandle := board.nextHandle + 1 })

/-- Tells a handle what became of its task; a handle that was consumed hears nothing. -/
def tell (board : Board ρ) (id : HandleId) (delivery : Delivery ρ) : Board ρ :=
  { board with handles := board.handles.alter id (·.map fun _ => delivery) }

def dropHandle (board : Board ρ) (id : HandleId) : Board ρ :=
  { board with handles := board.handles.erase id }

def openGroup (board : Board ρ) : GroupId × Board ρ :=
  (board.nextGroup,
    { board with
      groups := board.groups.insert board.nextGroup {}
      nextGroup := board.nextGroup + 1 })

/-- Changes a group; a group that was consumed has no members left to change it. -/
def onGroup (board : Board ρ) (id : GroupId) (f : Group → Group) : Board ρ :=
  { board with groups := board.groups.alter id (·.map f) }

/-- Gives a new member its place in a group. -/
def joinGroup (board : Board ρ) (id : GroupId) : Board ρ :=
  board.onGroup id fun group =>
    { group with spawned := group.spawned + 1, pending := group.pending + 1 }

/-- Records the message of a member that faulted. -/
def recordFault (board : Board ρ) (id : GroupId) (message : String) : Board ρ :=
  board.onGroup id fun group => { group with faults := group.faults ++ [message] }

/-- Gives up the place of a member. -/
def leaveGroup (board : Board ρ) (id : GroupId) : Board ρ :=
  board.onGroup id fun group => { group with pending := group.pending - 1 }

def dropGroup (board : Board ρ) (id : GroupId) : Board ρ :=
  { board with groups := board.groups.erase id }

/-- A task of this audience was accepted. -/
def enlist (board : Board ρ) : Audience → Board ρ
  | .group id => board.joinGroup id
  | .nobody | .handle _ => board

/-- A task of this audience was not accepted; a group has given it no place. -/
def refuse (board : Board ρ) : Audience → Board ρ
  | .handle id => board.tell id .lost
  | .nobody | .group _ => board

/-- An accepted task of this audience was dropped and will never run. -/
def dismiss (board : Board ρ) : Audience → Board ρ
  | .nobody => board
  | .handle id => board.tell id .lost
  | .group id => board.leaveGroup id

end Board

end MarkSweep
