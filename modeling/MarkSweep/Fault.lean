import MarkSweep.Heap.Reference
import MarkSweep.Lock.Level

namespace MarkSweep

/-- What a fault carries to whoever catches it. -/
inductive Payload
  | text (message : String)
  /-- A value without a message. -/
  | nonText
deriving DecidableEq, Repr

def Payload.message : Payload → String
  | text message => message
  | nonText => "non-string panic payload"

/-- The answers of calls that were refused or could not be completed. It is an answer, and unwinds
nothing. -/
inductive Failure
  /-- The pool no longer accepts work, or the task was dropped before it ran. -/
  | poolShutDown
  /-- A task ended by a fault with this message. -/
  | taskFaulted (message : String)
  /-- The quorum at the safepoint was not reached in time. -/
  | safepointTimeout (arrived expected : Nat)
  | workerSpawn (reason : String)
deriving DecidableEq, Repr

def Failure.message : Failure → String
  | poolShutDown => "worker pool has been shut down"
  | taskFaulted message => "gc task panicked: " ++ message
  | safepointTimeout arrived expected =>
    "safepoint timed out with " ++ toString arrived ++ " of " ++ toString expected
      ++ " threads arrived"
  | workerSpawn reason => "failed to spawn gc worker: " ++ reason

/-- The broken promises that unwind a call. It unwinds the call that met it; whatever the call had
already changed stays changed. -/
inductive Fault
  /-- A sum left the range of its counter. -/
  | addOverflow
  /-- A difference left the range of its counter. -/
  | subtractOverflow
  | durationOverflow
  /-- A deadline lies beyond the clock's range. -/
  | deadlineOverflow
  /-- More was to be stored in one piece than can be. -/
  | capacityOverflow
  /-- A lock of a lower level was asked for while a lock of rank `held` was held. -/
  | lockOrder (level : Level) (held : Nat)
  /-- A reference names an entry that its container does not hold. -/
  | missingEntry (ref : Ref)
  /-- An array was given more elements than its storage has. -/
  | lengthExceedsStorage (length storage : Nat)
  /-- A thread was to be started under a name that holds the character NUL. -/
  | threadName (name : String)
  /-- A failure that the caller had promised away. -/
  | failed (failure : Failure)
  /-- A fault of a task, raised again in whoever joined it. -/
  | reraised (payload : Payload)
deriving DecidableEq, Repr

/-- The most bytes that can be stored in one piece: the greatest multiple of eight that is a signed
64-bit number. -/
def pieceLimit : Nat := 0x7ffffffffffffff8

/-- The wording for a thread name that holds the character NUL: where the first one stands among the
bytes of the name, and those bytes. -/
def threadNameMessage (name : String) : String :=
  let bytes := name.toUTF8.toList
  "thread name may not contain interior null bytes: NulError(" ++ toString (bytes.findIdx (· == 0))
    ++ ", [" ++ ", ".intercalate (bytes.map toString) ++ "])"

def Fault.payload : Fault → Payload
  | addOverflow => .text "attempt to add with overflow"
  | subtractOverflow => .text "attempt to subtract with overflow"
  | durationOverflow => .text "overflow when adding durations"
  | deadlineOverflow => .text "overflow when adding duration to instant"
  | capacityOverflow => .text "capacity overflow"
  | lockOrder level held =>
    .text ("Lock ordering violation: " ++ level.name ++ " (level " ++ toString level.rank
      ++ ") cannot be acquired while holding a level " ++ toString held ++ " lock")
  | missingEntry ref =>
    .text ("heap invariant violated: " ++ ref.render ++ " is not in its container")
  | lengthExceedsStorage length storage =>
    .text ("array length " ++ toString length ++ " exceeds backing storage of "
      ++ toString storage)
  | threadName name => .text (threadNameMessage name)
  | failed failure => .text failure.message
  | reraised payload => payload

/-- The sum of two counts that have to stay within 64 bits. -/
def addCounts (m n : Nat) : Except Fault Nat :=
  if m + n < UInt64.size then .ok (m + n) else .error .addOverflow

/-- Whether `count` items of `bytes` bytes each can be stored in one piece. -/
def checkCapacity (count bytes : Nat) : Except Fault Unit :=
  if count * bytes ≤ pieceLimit then .ok () else .error .capacityOverflow

/-- Whether a thread can be started under a name. -/
def checkThreadName (name : String) : Except Fault Unit :=
  if name.toList.contains '\x00' then .error (.threadName name) else .ok ()

/-- The offset after `offset`; the last one has none. -/
def nextAfter (offset : Offset) : Except Fault Offset :=
  if offset.toNat + 1 < UInt64.size then .ok (offset + 1) else .error .addOverflow

end MarkSweep
