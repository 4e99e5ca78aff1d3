import MarkSweep.Proofs.Pool.Estate

namespace MarkSweep

variable {β ε ρ : Type}

instance (board : Board ρ) (audience : Audience) : Decidable (board.Has audience) :=
  match audience with
  | .nobody | .handle _ => isTrue nofun
  | .group id =>
    decidable_of_iff (board.groups[id]?.isSome = true)
      ⟨fun hsome _ heq => Audience.group.inj heq ▸ hsome, fun hhas => hhas id rfl⟩

deriving instance DecidableEq for Pool.Answer

namespace Estate

/-- Who goes on next. -/
inductive Turn (β : Type)
  /-- A pool is made. -/
  | found (workers : Nat) (name : String)
  /-- A client makes a call on a pool. -/
  | arrive (p : Nat) (errand : Pool.Errand β)
  /-- A call on a pool takes its next step. -/
  | call (p i : Nat)
  /-- A worker of a pool takes a step. -/
  | work (p i : Nat)

variable {B : Body β ε ρ} {e e' : Estate β ε ρ}

/-- The estate after a turn in the ordinary course, if the turn can be taken. -/
def next? (B : Body β ε ρ) (e : Estate β ε ρ) : Turn β → Option (Estate β ε ρ)
  | .found workers name =>
    match Pool.create? workers name with
    | .ok pool => some { e with plants := e.plants ++ [{ site := ⟨pool, e.env⟩ }] }
    | .error _ => none
  | .arrive p errand => e.plants[p]?.map fun c =>
    { e with
      plants := e.plants.set p { c with visits := c.visits ++ [⟨errand, {}, {}, errand.call⟩] } }
  | .call p i => e.plants[p]?.bind fun c => c.visits[i]?.bind fun visit =>
    (visit.next? 0 (e.view c).site).bind fun (visit', site) =>
      if ∀ queued ∈ c.site.pool.grown site.pool, e.board.Has queued.audience then
        some
          (e.update p (.client i)
            { (e.view c).advance (.client i) site with visits := c.visits.set i visit' })
      else none
  | .work p i => e.plants[p]?.bind fun c =>
    (Worksite.workerStep B 0 i (e.view c).site).bind fun site =>
      if ∀ queued ∈ c.site.pool.grown site.pool, e.board.Has queued.audience then
        some
          { e.update p (.worker i)
              (((e.view c).advance (.worker i) site).record i (c.site.pool.stage i)
                (site.pool.stage i)) with
            ends := e.ends ++ ((e.view c).ending? B p i).toList }
      else none

theorem Step.of_next? {turn : Turn β} (hnext : e.next? B turn = some e') : Step B e e' := by
  cases turn with
  | found workers name =>
    simp only [next?] at hnext
    split at hnext
    · next pool hpool =>
      cases hnext
      exact .found hpool
    · cases hnext
  | arrive p errand =>
    obtain ⟨c, hplant, rfl⟩ := Option.map_eq_some_iff.1 hnext
    exact .arrive hplant errand {}
  | call p i =>
    obtain ⟨c, hplant, hnext⟩ := Option.bind_eq_some_iff.1 hnext
    obtain ⟨visit, hget, hnext⟩ := Option.bind_eq_some_iff.1 hnext
    obtain ⟨⟨visit', site⟩, hvisit, hnext⟩ := Option.bind_eq_some_iff.1 hnext
    dsimp only at hnext
    split at hnext
    · next hhas =>
      cases hnext
      exact .call hplant hget (.of_next? hvisit) hhas
    · cases hnext
  | work p i =>
    obtain ⟨c, hplant, hnext⟩ := Option.bind_eq_some_iff.1 hnext
    obtain ⟨site, hstep, hnext⟩ := Option.bind_eq_some_iff.1 hnext
    dsimp only at hnext
    split at hnext
    · next hhas =>
      cases hnext
      exact .work hplant hstep hhas
    · cases hnext

/-- One turn after the other. -/
def replay (B : Body β ε ρ) (e : Estate β ε ρ) : List (Turn β) → Option (Estate β ε ρ)
  | [] => some e
  | turn :: turns => (e.next? B turn).bind (replay B · turns)

/-- What can be replayed can happen. -/
theorem run_of_replay {turns : List (Turn β)} (hreplay : e.replay B turns = some e') :
    Relation.ReflTransGen (Step B) e e' := by
  induction turns generalizing e with
  | nil =>
    cases hreplay
    exact .refl
  | cons turn turns ih =>
    obtain ⟨e'', hnext, hrest⟩ := Option.bind_eq_some_iff.1 hreplay
    exact .head (.of_next? hnext) (ih hrest)

/-- Turns that can be replayed are a run. -/
theorem exists_run_of_replay {turns : List (Turn β)} {p : Estate β ε ρ → Bool}
    (hreplay : (e.replay B turns).map p = some true) :
    ∃ e', Relation.ReflTransGen (Step B) e e' ∧ p e' = true := by
  obtain ⟨e', hrun, hp⟩ := Option.map_eq_some_iff.1 hreplay
  exact ⟨e', run_of_replay hrun, hp⟩

end Estate

end MarkSweep
