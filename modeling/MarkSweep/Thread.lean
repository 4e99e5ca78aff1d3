import MarkSweep.Fault
import MarkSweep.Routine
import MarkSweep.Trace

namespace MarkSweep

/-- What belongs to one thread alone. -/
structure Thread where
  /-- The lock levels it holds, the latest first. -/
  held : Held := []
  /-- What it has reported, the latest first. -/
  trace : List Record := []
deriving Repr

namespace Thread

def report (thread : Thread) (record : Record) : Thread :=
  { thread with trace := record :: thread.trace }

/-- Enters a lock level, or faults and changes nothing. -/
def enter (thread : Thread) (level : Level) : Except Fault Thread :=
  match thread.held.enter? level with
  | some held => .ok { thread with held }
  | none => .error (.lockOrder level thread.held.rank)

def leave (thread : Thread) (level : Level) : Thread :=
  { thread with held := thread.held.leave level }

/-- Whether the thread could enter `level` now. -/
def checkEnter (thread : Thread) (level : Level) : Except Fault Unit :=
  (thread.enter level).map fun _ => ()

end Thread

/-- A routine of one thread on a shared state of type `S` that ends with a value or a fault. -/
abbrev Call (S α : Type) : Type 1 := ExceptT Fault (Routine (Thread × S)) α

namespace Call

variable {S T α : Type}

/-- A single step on the shared state. -/
def atomic (f : S → α × S) : Call S α :=
  ExceptT.lift (.atomic fun (thread, s) => let (a, s) := f s; (a, thread, s))

/-- A single step on the shared state that may end with a fault. -/
def attempt (f : S → Except Fault α × S) : Call S α :=
  ExceptT.mk (.atomic fun (thread, s) => let (a, s) := f s; (a, thread, s))

/-- A single step on the shared state that depends on the thread and may end with a fault. -/
def attemptAs (f : Thread → S → Except Fault α × S) : Call S α :=
  ExceptT.mk (.atomic fun (thread, s) => let (a, s) := f thread s; (a, thread, s))

/-- A single look at the shared state. -/
def read (f : S → α) : Call S α := atomic fun s => (f s, s)

/-- A single change of the shared state. -/
def update (f : S → S) : Call S Unit := atomic fun s => ((), f s)

/-- A single step that waits until `f` offers a move. -/
def await (f : S → Option (α × S)) : Call S α :=
  ExceptT.lift (.await fun (thread, s) => (f s).map fun (a, s) => (a, thread, s))

/-- A single step whose outcome the environment decides. -/
def choose (f : Choice → S → Option (α × S)) : Call S α :=
  ExceptT.lift (.choose fun choice (thread, s) => (f choice s).map fun (a, s) => (a, thread, s))

/-- A step on what belongs to the thread. -/
def onThread (f : Thread → Except Fault α × Thread) : Call S α :=
  ExceptT.mk (.atomic fun (thread, s) => let (a, thread) := f thread; (a, thread, s))

def fault (f : Fault) : Call S α := throw f

def emit (event : Event) : Call S Unit :=
  onThread fun thread => (.ok (), thread.report (.event event))

/-- Runs `cleanup` when `body` ends, with a value or with a fault. -/
def andFinally (body : Call S α) (cleanup : Call S Unit) : Call S α :=
  ExceptT.mk do
    let result ← body.run
    match ← cleanup.run with
    | .ok () => pure result
    | .error f => pure (.error f)

def guarded (level : Level) (body : Call S α) : Call S α := do
  onThread fun thread =>
    match thread.enter level with
    | .ok thread => (.ok (), thread)
    | .error f => (.error f, thread)
  body.andFinally (onThread fun thread => (.ok (), thread.leave level))

def inSpan (span : Span) (body : Call S α) : Call S α := do
  onThread fun thread => (.ok (), thread.report (.opened span))
  body.andFinally (onThread fun thread => (.ok (), thread.report (.left span)))

/-- The same call on a part of a larger state. -/
def focus (get : T → S) (set : S → T → T) (call : Call S α) : Call T α :=
  Routine.focus (fun (thread, t) => (thread, get t))
    (fun (thread, s) (_, t) => (thread, set s t)) call

/-- The policy that a text names; an unknown name is reported and stands for the standard policy. -/
def policyNamed (text : String) : Call S Policy := do
  let (policy, events) := Policy.parseOrStandard text
  events.forM emit
  return policy

/-- The value of a computation; its fault ends the call. -/
def ofExcept (result : Except Fault α) : Call S α := ExceptT.mk (pure result)

/-- The value of an answer; a failure ends the call with a fault that carries its wording. -/
def orFault (answer : Except Failure α) : Call S α :=
  match answer with
  | .ok a => pure a
  | .error failure => fault (.failed failure)

end Call

end MarkSweep
