import MarkSweep.Duration
import MarkSweep.Policy
import MarkSweep.Text.Quoted

namespace MarkSweep

/-- The settings of a collector. There is always at least one worker. -/
structure Config where
  workers : Nat := 4
  workerName : String := "gc-worker"
  /-- The policy of a cycle for which the caller names none. -/
  policy : Policy := Policy.standard
  /-- How often a mutator that waits at the safepoint reports that it does. -/
  safepointTimeout : Option Duration := none
  workers_pos : 0 < workers := by decide
deriving DecidableEq

namespace Config

/-- Sets the worker count; 0 stands for 1. -/
def setWorkers (config : Config) (workers : Nat) : Config :=
  { config with
    workers := max workers 1
    workers_pos := Nat.le_max_right workers 1 }

def withWorkers (workers : Nat) : Config := ({} : Config).setWorkers workers

def setWorkerName (config : Config) (workerName : String) : Config := { config with workerName }

def setPolicy (config : Config) (policy : Policy) : Config := { config with policy }

def setSafepointTimeout (config : Config) (safepointTimeout : Option Duration) : Config :=
  { config with safepointTimeout }

def render (config : Config) : String :=
  let timeout :=
    match config.safepointTimeout with
    | none => "None"
    | some limit => "Some(" ++ limit.render ++ ")"
  "GcConfig \x7b workers: " ++ toString config.workers ++ ", worker_name: "
    ++ Text.quote config.workerName ++ ", policy: " ++ config.policy.render
    ++ ", safepoint_timeout: " ++ timeout ++ " \x7d"

end Config

end MarkSweep
