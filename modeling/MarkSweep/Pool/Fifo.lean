namespace MarkSweep

/-- A queue; the elements that came last wait in reverse. -/
structure Fifo (α : Type) where
  /-- The elements that come out first, in order. -/
  front : List α := []
  /-- The elements behind those, the latest first. -/
  back : List α := []

namespace Fifo

variable {α : Type}

/-- The elements in the order in which they come out. -/
def toList (queue : Fifo α) : List α := queue.front ++ queue.back.reverse

def empty : Fifo α := {}

def size (queue : Fifo α) : Nat := queue.front.length + queue.back.length

/-- Adds an element behind all others. -/
def push (queue : Fifo α) (a : α) : Fifo α := { queue with back := a :: queue.back }

/-- Takes the foremost element out, if there is one. -/
def pop? (queue : Fifo α) : Option (α × Fifo α) :=
  match queue.front with
  | a :: front => some (a, { queue with front })
  | [] =>
    match queue.back.reverse with
    | a :: front => some (a, ⟨front, []⟩)
    | [] => none

@[simp] theorem toList_empty : (empty : Fifo α).toList = [] := rfl

/-- A queue takes at its end what it is given. -/
@[simp] theorem toList_push (queue : Fifo α) (a : α) :
    (queue.push a).toList = queue.toList ++ [a] := by
  simp [toList, push]

@[simp] theorem length_toList (queue : Fifo α) : queue.toList.length = queue.size := by
  simp [toList, size]

/-- A queue gives what it has had for longest. -/
theorem toList_of_pop? {queue rest : Fifo α} {a : α} (hpop : queue.pop? = some (a, rest)) :
    queue.toList = a :: rest.toList := by
  obtain ⟨front, back⟩ := queue
  cases front with
  | cons b front => cases hpop; rfl
  | nil =>
    simp only [pop?] at hpop
    split at hpop
    · next hback => cases hpop; simp [toList, hback]
    · cases hpop

/-- Only an empty queue gives nothing. -/
theorem pop?_eq_none_iff {queue : Fifo α} : queue.pop? = none ↔ queue.toList = [] := by
  obtain ⟨front, back⟩ := queue
  cases front with
  | cons b front => simp [pop?, toList]
  | nil =>
    simp only [pop?, toList, List.nil_append]
    split
    · next hback => simp [hback]
    · next hback => simp [hback]

end Fifo

end MarkSweep
