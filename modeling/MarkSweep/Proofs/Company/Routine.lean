import MarkSweep.Routine
import Mathlib.Logic.Relation

namespace MarkSweep

/-- A property that the surroundings keep. -/
def Stable {σ : Type} (env : σ → σ → Prop) (A : σ → Prop) : Prop :=
  ∀ s s', A s → env s s' → A s'

/-- What the surroundings keep at every step they keep in the long run. -/
theorem Stable.trans {σ : Type} {env : σ → σ → Prop} {A : σ → Prop} (hA : Stable env A) {s s' : σ}
    (hs : A s) (henv : Relation.ReflTransGen env s s') : A s' := by
  induction henv with
  | refl => exact hs
  | tail _ hstep ih => exact hA _ _ ih hstep

namespace Routine

variable {σ α β : Type} {env : σ → σ → Prop} {live : Prop} {Q R : α → σ → Prop}

/-- A program on a part of a state goes on on that part. -/
theorem focus_bind {τ : Type} (get : τ → σ) (set : σ → τ → τ) (p : Routine σ β)
    (f : β → Routine σ α) :
    (p.bind f).focus get set = (p.focus get set).bind fun b => (f b).focus get set := by
  induction p with
  | done b => rfl
  | step act next ih => simp only [bind, focus, ih]

/-- A part of a part is a part. -/
theorem focus_focus {τ υ : Type} (get : τ → σ) (set : σ → τ → τ) (get' : υ → τ)
    (set' : τ → υ → υ) (p : Routine σ α) :
    (p.focus get set).focus get' set' =
      p.focus (fun x => get (get' x)) fun s x => set' (set s (get' x)) x := by
  induction p with
  | done value => rfl
  | step act next ih =>
    simp only [focus, ih, Option.map_map]
    rfl

/-- A step of a program that has not ended, or of its surroundings meanwhile. -/
inductive Together (env : σ → σ → Prop) : Routine σ α × σ → Routine σ α × σ → Prop
  /-- The program takes its next step. -/
  | own {β : Type} {act : Choice → σ → Option (β × σ)} {next : β → Routine σ α}
      {choice : Choice} {b : β} {s s' : σ} (hact : act choice s = some (b, s')) :
      Together env (.step act next, s) (next b, s')
  /-- The surroundings change the state. -/
  | others {β : Type} {act : Choice → σ → Option (β × σ)} {next : β → Routine σ α} {s s' : σ}
      (henv : env s s') : Together env (.step act next, s) (.step act next, s')

/-- Some course of events lets the program end with this value in this state. -/
def Returns (env : σ → σ → Prop) (p : Routine σ α) (s : σ) (value : α) (s' : σ) : Prop :=
  Relation.ReflTransGen (Together env) (p, s) (.done value, s')

/-- What a program comes to in the ordinary course can come of it in any company. -/
theorem returns_of_advance {p : Routine σ α} {s s' : σ} {value : α}
    (hadvance : p.advance s = (done value, s')) : Returns env p s value s' := by
  induction p generalizing s with
  | done value =>
    cases hadvance
    exact .refl
  | step act next ih =>
    unfold advance at hadvance
    split at hadvance
    · next b s'' hact => exact .head (.own hact) (ih b hadvance)
    · cases hadvance

/-- What can come of a program can come of it in larger company. -/
theorem Returns.mono {env' : σ → σ → Prop} (henv : ∀ s s', env s s' → env' s s')
    {p : Routine σ α} {s s' : σ} {value : α} (hreturns : Returns env p s value s') :
    Returns env' p s value s' := by
  refine Relation.ReflTransGen.mono ?_ _ _ hreturns
  intro before after hstep
  cases hstep with
  | own hact => exact .own hact
  | others hother => exact .others (henv _ _ hother)

/-- Every course of events lets the program end, with a value and in a state that satisfy `Q`: none
goes on forever, and none comes to a point where nothing can happen. -/
inductive Ends (env : σ → σ → Prop) (Q : α → σ → Prop) : Routine σ α → σ → Prop
  /-- The program has ended. -/
  | done {value : α} {s : σ} (hpost : Q value s) : Ends env Q (.done value) s
  /-- Something can happen, and whatever does leads to an end. -/
  | step {β : Type} {act : Choice → σ → Option (β × σ)} {next : β → Routine σ α} {s : σ}
      (hcan : ∃ after, Together env (.step act next, s) after)
      (hall : ∀ p s', Together env (.step act next, s) (p, s') → Ends env Q p s') :
      Ends env Q (.step act next) s

/-- Whatever the surroundings do, the program can only end with `Q`. If the program is to be `live`,
there is always something that can happen before its end. It is computed along the program. -/
def Attains (env : σ → σ → Prop) (live : Prop) (Q : α → σ → Prop) : Routine σ α → σ → Prop
  | done value, s => Q value s
  | step act next, s =>
    ∀ s', Relation.ReflTransGen env s s' →
      (live → (∃ choice b s'', act choice s' = some (b, s'')) ∨ ∃ s'', env s' s'') ∧
        ∀ choice b s'', act choice s' = some (b, s'') → Attains env live Q (next b) s''

theorem Attains.mono {p : Routine σ α} {s : σ} (hp : Attains env live Q p s)
    (hpost : ∀ value s', Q value s' → R value s') : Attains env live R p s := by
  induction p generalizing s with
  | done value => exact hpost value s hp
  | step act next ih =>
    intro s' henv
    obtain ⟨hcan, hnext⟩ := hp s' henv
    exact ⟨hcan, fun choice b s'' hact => ih b (hnext choice b s'' hact)⟩

/-- What a program attains in some company it attains in less. -/
theorem Attains.mono_env {env' : σ → σ → Prop} {p : Routine σ α} {s : σ}
    (hp : Attains env live Q p s) (henv : ∀ s s', env' s s' → env s s') :
    Attains env' False Q p s := by
  induction p generalizing s with
  | done value => exact hp
  | step act next ih =>
    intro s' hothers
    obtain ⟨-, hnext⟩ := hp s' (Relation.ReflTransGen.mono henv _ _ hothers)
    exact ⟨False.elim, fun choice b s'' hact => ih b (hnext choice b s'' hact)⟩

/-- A program on a part of a state attains there what it attains without company, as long as its
surroundings keep `A` and the part. -/
theorem attains_focus {τ : Type} (get : τ → σ) (set : σ → τ → τ) {env' : τ → τ → Prop}
    {A : τ → Prop} (hnone : ∀ s s', ¬env s s') (hget : ∀ s x, get (set s x) = s)
    (hA : ∀ x x', A x → env' x x' → A x' ∧ get x' = get x)
    (hset : ∀ s x, A x → A (set s x)) {p : Routine σ α} (x : τ) (hx : A x)
    (hp : Attains env True Q p (get x)) :
    Attains env' live (fun value x => A x ∧ Q value (get x)) (p.focus get set) x := by
  induction p generalizing x with
  | done value => exact ⟨hx, hp⟩
  | step act next ih =>
    intro x' hcompany
    have hreached : A x' ∧ get x' = get x := by
      induction hcompany with
      | refl => exact ⟨hx, rfl⟩
      | tail _ hstep ih =>
        obtain ⟨hA', heq⟩ := hA _ _ ih.1 hstep
        exact ⟨hA', heq.trans ih.2⟩
    obtain ⟨hx', heq⟩ := hreached
    obtain ⟨hcan, hnext⟩ := hp (get x) .refl
    rw [← heq] at hcan hnext
    refine ⟨fun _ => ?_, ?_⟩
    · obtain ⟨choice, b, s, hact⟩ | ⟨_, hstep⟩ := hcan trivial
      · exact .inl ⟨choice, b, set s x', by simp only [hact, Option.map_some]⟩
      · exact absurd hstep (hnone _ _)
    · intro choice b x'' hact
      obtain ⟨⟨b', s⟩, hpart, heq'⟩ := Option.map_eq_some_iff.1 hact
      cases heq'
      apply ih b _ (hset s x' hx')
      rw [hget]
      exact hnext choice b s hpart

/-- What one program attains the next may start from. -/
theorem attains_bind {Q : β → σ → Prop} {p : Routine σ α} {f : α → Routine σ β} {s : σ} :
    Attains env live Q (p.bind f) s ↔
      Attains env live (fun value s' => Attains env live Q (f value) s') p s := by
  induction p generalizing s with
  | done value => exact Iff.rfl
  | step act next ih => simp only [bind, Attains, ih]

/-- A postcondition that always holds is attained. -/
theorem attains_of_forall {p : Routine σ α} {s : σ} (hpost : ∀ value s', Q value s') :
    Attains env False Q p s := by
  induction p generalizing s with
  | done value => exact hpost value s
  | step act next ih => exact fun s' _ => ⟨False.elim, fun choice b s'' _ => ih b⟩

/-- A step before which the surroundings keep `A`. -/
theorem attains_step {A : σ → Prop} {act : Choice → σ → Option (β × σ)} {next : β → Routine σ α}
    (hA : Stable env A) {s : σ} (hs : A s)
    (hact : ∀ s, A s → ∀ choice b s', act choice s = some (b, s') →
      Attains env False Q (next b) s') : Attains env False Q (step act next) s :=
  fun _ henv => ⟨False.elim, hact _ (hA.trans hs henv)⟩

/-- What a state attains it still attains after a change by the surroundings. -/
theorem Attains.others {p : Routine σ α} {s s' : σ} (hp : Attains env live Q p s)
    (hQ : ∀ value, Stable env (Q value)) (henv : env s s') : Attains env live Q p s' := by
  cases p with
  | done value => exact hQ value s s' hp henv
  | step act next => exact fun s'' hthen => hp s'' (.head henv hthen)

/-- What a state attains it still attains after a step. -/
theorem Attains.together {p p' : Routine σ α} {s s' : σ} (hp : Attains env live Q p s)
    (hstep : Together env (p, s) (p', s')) : Attains env live Q p' s' := by
  cases hstep with
  | own hact => exact (hp s .refl).2 _ _ _ hact
  | others henv => exact fun s'' hthen => hp s'' (.head henv hthen)

/-- A program that attains a postcondition returns with nothing else. -/
theorem Attains.of_returns {p : Routine σ α} {s s' : σ} {value : α}
    (hp : Attains env live Q p s) (hreturns : Returns env p s value s') : Q value s' := by
  suffices hall : ∀ after, Relation.ReflTransGen (Together env) (p, s) after →
      Attains env live Q after.1 after.2 from hall _ hreturns
  intro after hsteps
  induction hsteps with
  | refl => exact hp
  | tail _ hstep ih => exact ih.together hstep

/-- A live program whose surroundings come to rest when it waits ends in every course of events. -/
theorem Attains.ends {p : Routine σ α} {s : σ} (hwf : WellFounded fun s' s => env s s')
    (hp : Attains env True Q p s) : Ends env Q p s := by
  induction p generalizing s with
  | done value => exact .done hp
  | step act next ih =>
    induction s using hwf.induction with
    | h s ihs =>
      refine .step ?_ ?_
      · obtain ⟨choice, b, s', hact⟩ | ⟨s', henv⟩ := (hp s .refl).1 trivial
        · exact ⟨_, .own hact⟩
        · exact ⟨_, .others henv⟩
      · intro p' s' hstep
        have hp' := hp.together hstep
        cases hstep with
        | own _ => exact ih _ hp'
        | others henv => exact ihs s' henv hp'

/-- A program that must end can end. -/
theorem Ends.exists_returns {p : Routine σ α} {s : σ} (hp : Ends env Q p s) :
    ∃ value s', Returns env p s value s' ∧ Q value s' := by
  induction hp with
  | done hpost => exact ⟨_, _, .refl, hpost⟩
  | step hcan _ ih =>
    obtain ⟨⟨p, s⟩, hstep⟩ := hcan
    obtain ⟨value, s', hthen, hpost⟩ := ih p s hstep
    exact ⟨value, s', .head hstep hthen, hpost⟩

end Routine

end MarkSweep
