namespace MarkSweep

/-- What the environment decides about a step; 0 is the ordinary course. -/
abbrev Choice := Nat

/-- A program of indivisible steps on a state of type `σ` that ends with a value.

Between two steps of a routine anything else may happen to the state, so a theorem about a routine
in company is a theorem about its steps. -/
inductive Routine (σ α : Type) : Type 1
  | done (value : α)
  /-- The next step, and how the program goes on after it. -/
  | step {β : Type} (act : Choice → σ → Option (β × σ)) (next : β → Routine σ α)

namespace Routine

variable {σ τ α β : Type}

def bind : Routine σ α → (α → Routine σ β) → Routine σ β
  | done value, f => f value
  | step act next, f => step act fun b => (next b).bind f

instance : Monad (Routine σ) where
  pure := done
  bind := bind

/-- A single step that never waits. -/
def atomic (f : σ → α × σ) : Routine σ α := step (fun _ s => some (f s)) done

/-- A single step that waits until `f` offers a move. -/
def await (f : σ → Option (α × σ)) : Routine σ α := step (fun _ s => f s) done

/-- A single step whose outcome the environment decides. -/
def choose (f : Choice → σ → Option (α × σ)) : Routine σ α := step f done

/-- The same program on a part of a larger state. -/
def focus (get : τ → σ) (set : σ → τ → τ) : Routine σ α → Routine τ α
  | done value => done value
  | step act next =>
    step (fun choice t => (act choice (get t)).map fun (b, s) => (b, set s t))
      fun b => (next b).focus get set

/-- Goes on in the ordinary course until the program ends or has to wait. -/
def advance : Routine σ α → σ → Routine σ α × σ
  | done value, s => (done value, s)
  | step act next, s =>
    match act 0 s with
    | some (b, s) => (next b).advance s
    | none => (step act next, s)

/-- Runs the program to its end. Where it has to wait, `settle` lets everyone else go on first;
where that does not help, the environment makes its other decision; where that does not help
either, the program never ends. -/
def run (settle : σ → σ) : Routine σ α → σ → Option (α × σ)
  | done value, s => some (value, s)
  | step act next, s =>
    match act 0 s with
    | some (b, s) => (next b).run settle s
    | none =>
      let s := settle s
      match (act 0 s).or (act 1 s) with
      | some (b, s) => (next b).run settle s
      | none => none

@[simp] theorem done_bind (value : α) (f : α → Routine σ β) : (done value).bind f = f value := rfl

theorem bind_assoc {γ : Type} (p : Routine σ α) (f : α → Routine σ β) (g : β → Routine σ γ) :
    (p.bind f).bind g = p.bind fun a => (f a).bind g := by
  induction p with
  | done value => rfl
  | step act next ih => simp only [bind, ih]

theorem bind_done (p : Routine σ α) : p.bind done = p := by
  induction p with
  | done value => rfl
  | step act next ih => simp only [bind, ih]

instance : LawfulMonad (Routine σ) :=
  LawfulMonad.mk' (Routine σ) bind_done (fun _ _ => rfl) bind_assoc

/-- A run of one program after another runs the second from where the first ended. -/
theorem run_bind (settle : σ → σ) (p : Routine σ α) (f : α → Routine σ β) (s : σ) :
    (p.bind f).run settle s = (p.run settle s).bind fun (a, s) => (f a).run settle s := by
  induction p generalizing s with
  | done value => rfl
  | step act next ih =>
    simp only [bind, run]
    split
    · exact ih _ _
    · split
      · exact ih _ _
      · rfl

end Routine

end MarkSweep
