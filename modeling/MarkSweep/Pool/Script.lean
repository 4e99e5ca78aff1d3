import MarkSweep.Pool.Settle

namespace MarkSweep

/-- One action of a scripted task. -/
inductive Action
  | log (line : String)
  /-- Waits until a latch is open. -/
  | passLatch (latch : String)
  /-- Gives up an owner of the pool. -/
  | giveUpOwner
  /-- Queues a task that logs a line on the own pool, and logs what came of it. -/
  | queue (line : String)
  /-- Does so as an owner of the pool for that while, or logs that the pool has no owner left. -/
  | relay (line : String)
deriving DecidableEq, Repr

/-- A task written down as data. -/
structure Script (ρ : Type) where
  actions : List Action
  /-- How it ends on the worker of this name. -/
  ending : (worker : String) → Outcome ρ

/-- What scripted tasks share. -/
structure Workshop where
  /-- The lines that were logged, the latest first. -/
  log : List String := []
  opened : List String := []
  /-- Whether every latch is open for good. -/
  allOpen : Bool := false
deriving Repr

namespace Workshop

/-- Whether a task may pass a latch. -/
def isOpen (shop : Workshop) (latch : String) : Bool := shop.allOpen || shop.opened.contains latch

/-- Opens a latch for good. -/
def openLatch (shop : Workshop) (latch : String) : Workshop :=
  { shop with opened := latch :: shop.opened }

/-- Opens every latch for good. -/
def openAll (shop : Workshop) : Workshop := { shop with allOpen := true }

/-- Takes the log out, the earliest line first. -/
def takeLog (shop : Workshop) : List String × Workshop :=
  (shop.log.reverse, { shop with log := [] })

end Workshop

namespace Action

/-- What an action counts for: its own step, the actions and tasks it stands for, and what the pool
may have to do. -/
def weight : Action → Nat
  | log _ | passLatch _ => 1
  | giveUpOwner => 5
  | queue _ => 7
  | relay _ => 13

/-- The line that says what came of a queued task. -/
def queued (line : String) : Reply → String
  | .done | .handle _ => "queued " ++ line
  | .refused => "rejected " ++ line ++ ": " ++ Failure.poolShutDown.message

end Action

namespace Script

variable {ρ : Type}

def weight (script : Script ρ) : Nat := total Action.weight script.actions

def step [Inhabited ρ] (worker : String) (shop : Workshop) (script : Script ρ) :
    Move (Script ρ) Workshop ρ :=
  match script.actions with
  | [] => .finish shop (script.ending worker)
  | .log line :: rest =>
    .next { shop with log := line :: shop.log } { script with actions := rest }
  | .passLatch latch :: rest =>
    if shop.isOpen latch then .next shop { script with actions := rest } else .wait
  | .giveUpOwner :: rest => .giveUp { script with actions := rest }
  | .queue line :: rest =>
    .ask (.execute ⟨[.log line], fun _ => .value default⟩ 0) fun reply =>
      { script with actions := .log (Action.queued line reply) :: rest }
  | .relay line :: rest =>
    .adopt fun owned =>
      { script with
        actions :=
          if owned then .queue line :: .giveUpOwner :: rest
          else .log ("no pool for " ++ line) :: rest }

/-- How scripted tasks behave in a pool. -/
def body [Inhabited ρ] : Body (Script ρ) Workshop ρ where
  step worker _ := step worker

/-- The actions of a script bound its steps. -/
instance [Inhabited ρ] : (body (ρ := ρ)).Sized where
  size _ := weight
  size_next {_ _ _ script _ _} h := by
    dsimp only [body, step] at h
    split at h <;> try cases h
    · next hactions => simp [weight, hactions, Action.weight]
    · next hactions =>
      split at h <;> cases h
      simp [weight, hactions, Action.weight]
  size_next_le _ _ := Nat.le_refl _
  size_adopt {_ _ _ script _} h owned := by
    dsimp only [body, step] at h
    split at h <;> try cases h
    · split at h <;> cases h
    · next hactions =>
      cases owned <;> simp [weight, hactions, Action.weight]
      omega
  size_giveUp {_ _ _ script _} h := by
    dsimp only [body, step] at h
    split at h <;> try cases h
    · split at h <;> cases h
    · next hactions => simp [weight, hactions, Action.weight]; omega
  size_ask {_ _ _ script _ _} h reply := by
    dsimp only [body, step] at h
    split at h <;> try cases h
    · split at h <;> cases h
    · next hactions => simp [weight, hactions, Action.weight, Request.weight]; omega
  size_finish_le _ _ := Nat.le_refl _

end Script

end MarkSweep
