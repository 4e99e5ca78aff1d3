import MarkSweep.Proofs.Company.Call

namespace MarkSweep

namespace Routine

variable {σ α β : Type} {env : σ → σ → Prop} {s s' : σ} {a : α}

theorem returns_done_iff {b : α} : Returns env (done b) s a s' ↔ b = a ∧ s = s' := by
  constructor
  · intro hreturns
    obtain heq | ⟨_, hstep, -⟩ := hreturns.cases_head
    · cases heq
      exact ⟨rfl, rfl⟩
    · cases hstep
  · intro heq
    obtain ⟨rfl, rfl⟩ := heq
    exact .refl

/-- A program takes its next step once the surroundings have done what they do before it. -/
theorem returns_step_iff {act : Choice → σ → Option (β × σ)} {next : β → Routine σ α} :
    Returns env (step act next) s a s' ↔ ∃ s₁ choice b s₂, Relation.ReflTransGen env s s₁ ∧
      act choice s₁ = some (b, s₂) ∧ Returns env (next b) s₂ a s' := by
  constructor
  · intro hreturns
    unfold Returns at hreturns
    generalize hbefore : (step act next, s) = before at hreturns
    induction hreturns using Relation.ReflTransGen.head_induction_on generalizing s with
    | refl => cases hbefore
    | head hstep hthen ih =>
      subst hbefore
      cases hstep with
      | own hact => exact ⟨s, _, _, _, .refl, hact, hthen⟩
      | others henv =>
        obtain ⟨s₁, choice, b, s₂, hcompany, hact, hend⟩ := ih rfl
        exact ⟨s₁, choice, b, s₂, .head henv hcompany, hact, hend⟩
  · intro hend
    obtain ⟨s₁, choice, b, s₂, hcompany, hact, hend⟩ := hend
    have hbefore : Relation.ReflTransGen (Together env) (step act next, s) (step act next, s₁) :=
      hcompany.lift (fun s => (step act next, s)) fun _ _ henv => .others henv
    exact hbefore.trans (.head (.own hact) hend)

/-- What can come of one program after another comes of the second after the first. -/
theorem returns_bind_iff {p : Routine σ β} {f : β → Routine σ α} :
    Returns env (p.bind f) s a s' ↔
      ∃ b s₁, Returns env p s b s₁ ∧ Returns env (f b) s₁ a s' := by
  induction p generalizing s with
  | done b =>
    simp only [done_bind, returns_done_iff]
    constructor
    · intro hreturns
      exact ⟨b, s, ⟨rfl, rfl⟩, hreturns⟩
    · intro hreturns
      obtain ⟨_, _, ⟨rfl, rfl⟩, hreturns⟩ := hreturns
      exact hreturns
  | step act next ih =>
    simp only [bind, returns_step_iff, ih]
    constructor
    · intro hreturns
      obtain ⟨s₁, choice, c, s₂, hcompany, hact, b, s₃, hfirst, hthen⟩ := hreturns
      exact ⟨b, s₃, ⟨s₁, choice, c, s₂, hcompany, hact, hfirst⟩, hthen⟩
    · intro hreturns
      obtain ⟨b, s₃, ⟨s₁, choice, c, s₂, hcompany, hact, hfirst⟩, hthen⟩ := hreturns
      exact ⟨s₁, choice, c, s₂, hcompany, hact, b, s₃, hfirst, hthen⟩

end Routine

namespace Call

open Routine (Returns)

variable {S α β γ δ : Type} {env : S → S → Prop}

/-- The ends of two calls correspond: their values by `V`, or else they have the same fault. -/
inductive Matches (V : α → β → S → S → Prop) (E : S → S → Prop) :
    Except Fault α → Except Fault β → S → S → Prop
  | ok {a : α} {b : β} {s₁ s₂ : S} (hvalue : V a b s₁ s₂) : Matches V E (.ok a) (.ok b) s₁ s₂
  | error {f : Fault} {s₁ s₂ : S} (hfault : E s₁ s₂) : Matches V E (.error f) (.error f) s₁ s₂

/-- Whatever the surroundings do to the one state, they can do something to the other after which
the two correspond again. -/
def Follows (env : S → S → Prop) (R : S → S → Prop) : Prop :=
  ∀ s₁ s₂ s₁', R s₁ s₂ → env s₁ s₁' → ∃ s₂', Relation.ReflTransGen env s₂ s₂' ∧ R s₁' s₂'

/-- Made by a thread with these levels held from states that correspond by `R`, the second call can
end like the first, and the thread has reported the same and holds the same levels again.

What comes of the two is taken apart step by step, so that a pair of calls is compared along the
steps that they have in common. -/
def Mirrors (env : S → S → Prop) (held : Held) (R : S → S → Prop) (call₁ : Call S α)
    (call₂ : Call S β) (V : α → β → S → S → Prop) (E : S → S → Prop) : Prop :=
  ∀ t s₁ s₂, t.held = held → R s₁ s₂ → ∀ r₁ t' s₁',
    Returns (Beside env) call₁ (t, s₁) r₁ (t', s₁') →
      ∃ r₂ s₂', Returns (Beside env) call₂ (t, s₂) r₂ (t', s₂') ∧ t'.held = held ∧
        Matches V E r₁ r₂ s₁' s₂'

variable {held : Held} {R : S → S → Prop} {V : α → β → S → S → Prop} {E : S → S → Prop}

theorem Follows.trans (hR : Follows env R) {s₁ s₂ s₁' : S} (hs : R s₁ s₂)
    (hcompany : Relation.ReflTransGen env s₁ s₁') :
    ∃ s₂', Relation.ReflTransGen env s₂ s₂' ∧ R s₁' s₂' := by
  induction hcompany with
  | refl => exact ⟨s₂, .refl, hs⟩
  | tail _ hstep ih =>
    obtain ⟨s₂', hcompany, hs'⟩ := ih
    obtain ⟨s₂'', hthen, hs''⟩ := hR _ _ _ hs' hstep
    exact ⟨s₂'', hcompany.trans hthen, hs''⟩

theorem Follows.exists {ι : Sort*} {R : ι → S → S → Prop} (hR : ∀ i, Follows env (R i)) :
    Follows env fun s₁ s₂ => ∃ i, R i s₁ s₂ := by
  intro s₁ s₂ s₁' hs henv
  obtain ⟨i, hi⟩ := hs
  obtain ⟨s₂', hcompany, hi'⟩ := hR i s₁ s₂ s₁' hi henv
  exact ⟨s₂', hcompany, i, hi'⟩

theorem Follows.given {φ : Prop} (hR : Follows env R) : Follows env fun s₁ s₂ => φ ∧ R s₁ s₂ := by
  intro s₁ s₂ s₁' hs henv
  obtain ⟨s₂', hcompany, hs'⟩ := hR s₁ s₂ s₁' hs.2 henv
  exact ⟨s₂', hcompany, hs.1, hs'⟩

/-- The surroundings of a thread leave the thread alone. -/
theorem beside_trans_iff {x y : Thread × S} :
    Relation.ReflTransGen (Beside env) x y ↔ y.1 = x.1 ∧ Relation.ReflTransGen env x.2 y.2 := by
  constructor
  · intro hcompany
    induction hcompany with
    | refl => exact ⟨rfl, .refl⟩
    | tail _ hstep ih => exact ⟨hstep.1.trans ih.1, ih.2.tail hstep.2⟩
  · intro hcompany
    obtain ⟨t, s⟩ := x
    obtain ⟨t', s'⟩ := y
    obtain ⟨rfl, hcompany⟩ := hcompany
    exact hcompany.lift (fun s => (t', s)) fun _ _ henv => ⟨rfl, henv⟩

theorem Matches.mono {V' : α → β → S → S → Prop} {E' : S → S → Prop} {r₁ : Except Fault α}
    {r₂ : Except Fault β} {s₁ s₂ : S} (hend : Matches V E r₁ r₂ s₁ s₂)
    (hV : ∀ a b s₁ s₂, V a b s₁ s₂ → V' a b s₁ s₂) (hE : ∀ s₁ s₂, E s₁ s₂ → E' s₁ s₂) :
    Matches V' E' r₁ r₂ s₁ s₂ := by
  cases hend with
  | ok hvalue => exact .ok (hV _ _ _ _ hvalue)
  | error hfault => exact .error (hE _ _ hfault)

/-- What the surroundings do at the end of the one call they can follow at the end of the other. -/
theorem Matches.follows {r₁ : Except Fault α} {r₂ : Except Fault β} {s₁ s₂ s₁' : S}
    (hend : Matches V E r₁ r₂ s₁ s₂) (hV : ∀ a b, Follows env (V a b)) (hE : Follows env E)
    (hcompany : Relation.ReflTransGen env s₁ s₁') :
    ∃ s₂', Relation.ReflTransGen env s₂ s₂' ∧ Matches V E r₁ r₂ s₁' s₂' := by
  cases hend with
  | ok hvalue =>
    obtain ⟨s₂', hcompany', hvalue'⟩ := (hV _ _).trans hvalue hcompany
    exact ⟨s₂', hcompany', .ok hvalue'⟩
  | error hfault =>
    obtain ⟨s₂', hcompany', hfault'⟩ := hE.trans hfault hcompany
    exact ⟨s₂', hcompany', .error hfault'⟩

theorem Mirrors.mono {R' : S → S → Prop} {V' : α → β → S → S → Prop} {E' : S → S → Prop}
    {call₁ : Call S α} {call₂ : Call S β} (hcall : Mirrors env held R call₁ call₂ V E)
    (hpre : ∀ s₁ s₂, R' s₁ s₂ → R s₁ s₂) (hV : ∀ a b s₁ s₂, V a b s₁ s₂ → V' a b s₁ s₂)
    (hE : ∀ s₁ s₂, E s₁ s₂ → E' s₁ s₂) : Mirrors env held R' call₁ call₂ V' E' := by
  intro t s₁ s₂ hheld hs r₁ t' s₁' hreturns
  obtain ⟨r₂, s₂', hreturns', hheld', hend⟩ := hcall t s₁ s₂ hheld (hpre _ _ hs) _ _ _ hreturns
  exact ⟨r₂, s₂', hreturns', hheld', hend.mono hV hE⟩

/-- What each of two calls is known to leave behind may be used of both together. -/
theorem Mirrors.and_meets {live : Prop} {A Z : S → Prop} {call₁ : Call S α} {call₂ : Call S β}
    (hcall : Mirrors env held R call₁ call₂ V E) (hA : ∀ s₁ s₂, R s₁ s₂ → A s₁ ∧ A s₂)
    (hfirst : ∀ t, t.held = held → Meets env live A t call₁ fun _ _ => Z)
    (hsecond : ∀ t, t.held = held → Meets env live A t call₂ fun _ _ => Z) :
    Mirrors env held R call₁ call₂ (fun a b s₁ s₂ => V a b s₁ s₂ ∧ Z s₁ ∧ Z s₂)
      fun s₁ s₂ => E s₁ s₂ ∧ Z s₁ ∧ Z s₂ := by
  intro t s₁ s₂ hheld hs r₁ t' s₁' hreturns
  obtain ⟨r₂, s₂', hreturns', hheld', hend⟩ := hcall t s₁ s₂ hheld hs _ _ _ hreturns
  have hZ : Z s₁' ∧ Z s₂' :=
    ⟨(hfirst t hheld s₁ (hA _ _ hs).1).of_returns hreturns,
      (hsecond t hheld s₂ (hA _ _ hs).2).of_returns hreturns'⟩
  refine ⟨r₂, s₂', hreturns', hheld', ?_⟩
  cases hend with
  | ok hvalue => exact .ok ⟨hvalue, hZ⟩
  | error hfault => exact .error ⟨hfault, hZ⟩

theorem returns_bind_iff {call : Call S β} {f : β → Call S α} {x y : Thread × S}
    {r : Except Fault α} :
    Returns (Beside env) (call >>= f : Call S α) x r y ↔
      ∃ r' z, Returns (Beside env) call x r' z ∧ match r' with
        | .ok b => Returns (Beside env) (f b) z r y
        | .error fault => r = .error fault ∧ y = z := by
  refine Iff.trans Routine.returns_bind_iff (exists₂_congr fun r' z => and_congr_right fun _ => ?_)
  cases r' with
  | ok b => exact Iff.rfl
  | error fault =>
    apply Iff.trans Routine.returns_done_iff
    exact and_congr eq_comm eq_comm

/-- What comes of a call with something to undo comes of its body and of the undoing. -/
theorem returns_andFinally_iff {body : Call S α} {cleanup : Call S Unit} {x y : Thread × S}
    {r : Except Fault α} :
    Returns (Beside env) (body.andFinally cleanup) x r y ↔
      ∃ r' z undone, Returns (Beside env) body x r' z ∧ Returns (Beside env) cleanup z undone y ∧
        r = match undone with
          | .ok () => r'
          | .error fault => .error fault := by
  constructor
  · intro hreturns
    obtain ⟨r', z, hbody, hthen⟩ := Routine.returns_bind_iff.1 hreturns
    obtain ⟨undone, z', hcleanup, hend⟩ := Routine.returns_bind_iff.1 hthen
    cases undone with
    | ok _ =>
      obtain ⟨rfl, rfl⟩ := Routine.returns_done_iff.1 hend
      exact ⟨r', z, _, hbody, hcleanup, rfl⟩
    | error fault =>
      obtain ⟨rfl, rfl⟩ := Routine.returns_done_iff.1 hend
      exact ⟨r', z, _, hbody, hcleanup, rfl⟩
  · intro hreturns
    obtain ⟨r', z, undone, hbody, hcleanup, rfl⟩ := hreturns
    refine Routine.returns_bind_iff.2 ⟨r', z, hbody, Routine.returns_bind_iff.2
      ⟨undone, y, hcleanup, ?_⟩⟩
    cases undone with
    | ok _ => exact .refl
    | error fault => exact .refl

/-- A step that concerns its thread only comes to what it says, whatever the surroundings do. -/
theorem returns_onThread_iff {f : Thread → Except Fault α × Thread} {t t' : Thread} {s s' : S}
    {r : Except Fault α} :
    Returns (Beside env) (onThread f) (t, s) r (t', s') ↔
      r = (f t).1 ∧ t' = (f t).2 ∧ Relation.ReflTransGen env s s' := by
  constructor
  · intro hreturns
    obtain ⟨⟨t₁, s₁⟩, choice, _, ⟨t₂, s₂⟩, hcompany, hact, hend⟩ :=
      Routine.returns_step_iff.1 hreturns
    obtain ⟨ht, hcompany⟩ := beside_trans_iff.1 hcompany
    obtain rfl : t₁ = t := ht
    cases hact
    obtain ⟨rfl, heq⟩ := Routine.returns_done_iff.1 hend
    cases heq
    exact ⟨rfl, rfl, hcompany⟩
  · intro hend
    obtain ⟨rfl, rfl, hcompany⟩ := hend
    exact Routine.returns_step_iff.2 ⟨(t, s'), 0, _, _, beside_trans_iff.2 ⟨rfl, hcompany⟩, rfl,
      .refl⟩

/-- A body between two steps of its thread. -/
theorem returns_between_iff {enter : Thread → Except Fault Unit × Thread} {leave : Thread → Thread}
    {body : Call S α} {t entered t' : Thread} {s s' : S} {r : Except Fault α}
    (henter : enter t = (.ok (), entered)) :
    Returns (Beside env)
        (onThread enter >>= fun _ =>
          body.andFinally (onThread fun thread => (.ok (), leave thread)) : Call S α)
        (t, s) r (t', s') ↔
      ∃ s₁ t₂ s₂, Relation.ReflTransGen env s s₁ ∧
        Returns (Beside env) body (entered, s₁) r (t₂, s₂) ∧ t' = leave t₂ ∧
        Relation.ReflTransGen env s₂ s' := by
  constructor
  · intro hreturns
    obtain ⟨r', ⟨t₁, s₁⟩, hfirst, hthen⟩ := returns_bind_iff.1 hreturns
    obtain ⟨hr, ht, hcompany⟩ := returns_onThread_iff.1 hfirst
    rw [henter] at hr ht
    subst hr ht
    obtain ⟨r', ⟨t₂, s₂⟩, undone, hbody, hleave, rfl⟩ := returns_andFinally_iff.1 hthen
    obtain ⟨rfl, rfl, hend⟩ := returns_onThread_iff.1 hleave
    exact ⟨s₁, t₂, s₂, hcompany, hbody, rfl, hend⟩
  · intro hreturns
    obtain ⟨s₁, t₂, s₂, hcompany, hbody, rfl, hend⟩ := hreturns
    refine returns_bind_iff.2 ⟨.ok (), (entered, s₁), returns_onThread_iff.2 ?_,
      returns_andFinally_iff.2 ⟨r, (t₂, s₂), .ok (), hbody, returns_onThread_iff.2 ?_, rfl⟩⟩
    · rw [henter]
      exact ⟨rfl, rfl, hcompany⟩
    · exact ⟨rfl, rfl, hend⟩

/-- A call that may not enter its level comes to nothing else than that. -/
theorem returns_guarded_of_error_iff {level : Level} {body : Call S α} {t t' : Thread} {s s' : S}
    {r : Except Fault α} {fault : Fault} (henter : t.enter level = .error fault) :
    Returns (Beside env) (guarded level body) (t, s) r (t', s') ↔
      r = .error fault ∧ t' = t ∧ Relation.ReflTransGen env s s' := by
  unfold guarded
  constructor
  · intro hreturns
    obtain ⟨r', ⟨t₁, s₁⟩, hfirst, hthen⟩ := returns_bind_iff.1 hreturns
    obtain ⟨hr, ht, hcompany⟩ := returns_onThread_iff.1 hfirst
    rw [henter] at hr ht
    subst hr ht
    obtain ⟨rfl, heq⟩ := hthen
    cases heq
    exact ⟨rfl, rfl, hcompany⟩
  · intro hreturns
    obtain ⟨rfl, rfl, hcompany⟩ := hreturns
    refine returns_bind_iff.2 ⟨.error fault, (t', s'), returns_onThread_iff.2 ?_, rfl, rfl⟩
    rw [henter]
    exact ⟨rfl, rfl, hcompany⟩

theorem mirrors_pure {a : α} {b : β} (hpost : ∀ s₁ s₂, R s₁ s₂ → V a b s₁ s₂) :
    Mirrors env held R (pure a) (pure b) V E := by
  intro t s₁ s₂ hheld hs r₁ t' s₁' hreturns
  obtain ⟨rfl, heq⟩ := Routine.returns_done_iff.1 hreturns
  cases heq
  exact ⟨.ok b, s₂, .refl, hheld, .ok (hpost _ _ hs)⟩

theorem mirrors_fault {f : Fault} (hpost : ∀ s₁ s₂, R s₁ s₂ → E s₁ s₂) :
    Mirrors env held R (fault f) (fault f) V E := by
  intro t s₁ s₂ hheld hs r₁ t' s₁' hreturns
  obtain ⟨rfl, heq⟩ := Routine.returns_done_iff.1 hreturns
  cases heq
  exact ⟨.error f, s₂, .refl, hheld, .error (hpost _ _ hs)⟩

/-- The second of two calls is compared from wherever the first may have led. -/
theorem mirrors_bind {call₁ : Call S γ} {call₂ : Call S δ} {f : γ → Call S α} {g : δ → Call S β}
    {W : γ → δ → S → S → Prop} (hcall : Mirrors env held R call₁ call₂ W E)
    (hthen : ∀ c d, Mirrors env held (W c d) (f c) (g d) V E) :
    Mirrors env held R (call₁ >>= f) (call₂ >>= g) V E := by
  intro t s₁ s₂ hheld hs r₁ t' s₁' hreturns
  obtain ⟨r, ⟨t₁, s₃⟩, hfirst, hsecond⟩ := returns_bind_iff.1 hreturns
  obtain ⟨r', s₄, hfirst', hheld₁, hend⟩ := hcall t s₁ s₂ hheld hs _ _ _ hfirst
  cases hend with
  | ok hvalue =>
    obtain ⟨r₂, s₂', hsecond', hheld', hend'⟩ := hthen _ _ t₁ s₃ s₄ hheld₁ hvalue _ _ _ hsecond
    exact ⟨r₂, s₂', returns_bind_iff.2 ⟨_, _, hfirst', hsecond'⟩, hheld', hend'⟩
  | error hfault =>
    obtain ⟨rfl, heq⟩ := hsecond
    cases heq
    exact ⟨_, s₄, returns_bind_iff.2 ⟨_, _, hfirst', rfl, rfl⟩, hheld₁, .error hfault⟩

theorem mirrors_exists {ι : Sort*} {R : ι → S → S → Prop} {call₁ : Call S α} {call₂ : Call S β}
    (hcall : ∀ i, Mirrors env held (R i) call₁ call₂ V E) :
    Mirrors env held (fun s₁ s₂ => ∃ i, R i s₁ s₂) call₁ call₂ V E := by
  intro t s₁ s₂ hheld hs
  obtain ⟨i, hi⟩ := hs
  exact hcall i t s₁ s₂ hheld hi

theorem mirrors_given {φ : Prop} {call₁ : Call S α} {call₂ : Call S β}
    (hcall : φ → Mirrors env held R call₁ call₂ V E) :
    Mirrors env held (fun s₁ s₂ => φ ∧ R s₁ s₂) call₁ call₂ V E :=
  fun t s₁ s₂ hheld hs => hcall hs.1 t s₁ s₂ hheld hs.2

/-- Where the values of the first calls are known, only what follows those is compared. -/
theorem mirrors_bind_at {call₁ : Call S γ} {call₂ : Call S δ} {f : γ → Call S α}
    {g : δ → Call S β} {P : S → S → Prop} (c : γ) (d : δ)
    (hcall : Mirrors env held R call₁ call₂ (fun c' d' s₁ s₂ => c' = c ∧ d' = d ∧ P s₁ s₂) E)
    (hthen : Mirrors env held P (f c) (g d) V E) :
    Mirrors env held R (call₁ >>= f) (call₂ >>= g) V E := by
  refine mirrors_bind hcall fun c' d' => mirrors_given fun hc => mirrors_given fun hd => ?_
  rw [hc, hd]
  exact hthen

/-- Where the first calls have the same value, they are followed by calls for one value. -/
theorem mirrors_bind_same {call₁ call₂ : Call S γ} {f : γ → Call S α} {g : γ → Call S β}
    {P : γ → S → S → Prop}
    (hcall : Mirrors env held R call₁ call₂ (fun c d s₁ s₂ => d = c ∧ P c s₁ s₂) E)
    (hthen : ∀ c, Mirrors env held (P c) (f c) (g c) V E) :
    Mirrors env held R (call₁ >>= f) (call₂ >>= g) V E := by
  refine mirrors_bind hcall fun c d => mirrors_given fun hd => ?_
  rw [hd]
  exact hthen c

/-- What has to be undone at the end of two calls is undone on both exits. -/
theorem mirrors_andFinally {body₁ : Call S α} {body₂ : Call S β} {cleanup₁ cleanup₂ : Call S Unit}
    {W : α → β → S → S → Prop} {F : S → S → Prop} (hbody : Mirrors env held R body₁ body₂ W F)
    (hvalue : ∀ a b, Mirrors env held (W a b) cleanup₁ cleanup₂ (fun _ _ => V a b) E)
    (hfault : Mirrors env held F cleanup₁ cleanup₂ (fun _ _ => E) E) :
    Mirrors env held R (body₁.andFinally cleanup₁) (body₂.andFinally cleanup₂) V E := by
  intro t s₁ s₂ hheld hs r₁ t' s₁' hreturns
  obtain ⟨r, ⟨t₁, s₃⟩, undone, hfirst, hcleanup, rfl⟩ := returns_andFinally_iff.1 hreturns
  obtain ⟨r', s₄, hfirst', hheld₁, hend⟩ := hbody t s₁ s₂ hheld hs _ _ _ hfirst
  cases hend with
  | ok hW =>
    obtain ⟨undone', s₂', hcleanup', hheld', hend'⟩ :=
      hvalue _ _ t₁ s₃ s₄ hheld₁ hW _ _ _ hcleanup
    refine ⟨_, s₂', returns_andFinally_iff.2 ⟨_, _, _, hfirst', hcleanup', rfl⟩, hheld', ?_⟩
    cases hend' with
    | ok hV => exact .ok hV
    | error hE => exact .error hE
  | error hF =>
    obtain ⟨undone', s₂', hcleanup', hheld', hend'⟩ := hfault t₁ s₃ s₄ hheld₁ hF _ _ _ hcleanup
    refine ⟨_, s₂', returns_andFinally_iff.2 ⟨_, _, _, hfirst', hcleanup', rfl⟩, hheld', ?_⟩
    cases hend' with
    | ok hE => exact .error hE
    | error hE => exact .error hE

/-- A single step, before which the surroundings may have done anything. -/
private theorem mirrors_step {act₁ : Choice → Thread × S → Option (γ × Thread × S)}
    {act₂ : Choice → Thread × S → Option (δ × Thread × S)} {f : γ → Except Fault α}
    {g : δ → Except Fault β} (hR : Follows env R)
    (hact : ∀ t s₁ s₂, R s₁ s₂ → ∀ choice c t' s₁', act₁ choice (t, s₁) = some (c, t', s₁') →
      t' = t ∧ ∃ d s₂', act₂ choice (t, s₂) = some (d, t, s₂') ∧
        Matches V E (f c) (g d) s₁' s₂') :
    Mirrors env held R (Routine.step act₁ fun c => Routine.done (f c))
      (Routine.step act₂ fun d => Routine.done (g d)) V E := by
  intro t s₁ s₂ hheld hs r₁ t' s₁' hreturns
  obtain ⟨⟨t₁, s₃⟩, choice, c, ⟨t₂, s₄⟩, hcompany, hstep, hend⟩ :=
    Routine.returns_step_iff.1 hreturns
  obtain ⟨rfl, heq⟩ := Routine.returns_done_iff.1 hend
  cases heq
  obtain ⟨ht, hcompany⟩ := beside_trans_iff.1 hcompany
  obtain rfl : t₁ = t := ht
  obtain ⟨s₅, hcompany', hs'⟩ := hR.trans hs hcompany
  obtain ⟨rfl, d, s₂', hstep', hmatch⟩ := hact _ _ _ hs' _ _ _ _ hstep
  refine ⟨g d, s₂', Routine.returns_step_iff.2 ⟨(t', s₅), choice, d, (t', s₂'), ?_, hstep', .refl⟩,
    hheld, hmatch⟩
  exact beside_trans_iff.2 ⟨rfl, hcompany'⟩

theorem mirrors_atomic {f : S → α × S} {g : S → β × S} (hR : Follows env R)
    (hstep : ∀ s₁ s₂, R s₁ s₂ → V (f s₁).1 (g s₂).1 (f s₁).2 (g s₂).2) :
    Mirrors env held R (atomic f) (atomic g) V E := by
  refine mirrors_step (f := Except.ok) (g := Except.ok) hR ?_
  intro t s₁ s₂ hs choice c t' s₁' hact
  cases hact
  exact ⟨rfl, _, _, rfl, .ok (hstep _ _ hs)⟩

theorem mirrors_update {f g : S → S} {V : Unit → Unit → S → S → Prop} (hR : Follows env R)
    (hstep : ∀ s₁ s₂, R s₁ s₂ → V () () (f s₁) (g s₂)) :
    Mirrors env held R (update f) (update g) V E :=
  mirrors_atomic hR hstep

theorem mirrors_choose {f : Choice → S → α × S} {g : Choice → S → β × S} (hR : Follows env R)
    (hstep : ∀ choice s₁ s₂, R s₁ s₂ →
      V (f choice s₁).1 (g choice s₂).1 (f choice s₁).2 (g choice s₂).2) :
    Mirrors env held R (choose fun choice s => some (f choice s))
      (choose fun choice s => some (g choice s)) V E := by
  refine mirrors_step (f := Except.ok) (g := Except.ok) hR ?_
  intro t s₁ s₂ hs choice c t' s₁' hact
  cases hact
  exact ⟨rfl, _, _, rfl, .ok (hstep _ _ _ hs)⟩

/-- Where the one call need not wait, the other need not. -/
theorem mirrors_await {f : S → Option (α × S)} {g : S → Option (β × S)} (hR : Follows env R)
    (hstep : ∀ s₁ s₂, R s₁ s₂ → ∀ a s₁', f s₁ = some (a, s₁') →
      ∃ b s₂', g s₂ = some (b, s₂') ∧ V a b s₁' s₂') :
    Mirrors env held R (await f) (await g) V E := by
  refine mirrors_step (f := Except.ok) (g := Except.ok) hR ?_
  intro t s₁ s₂ hs choice a t' s₁' hact
  obtain ⟨⟨a', s'⟩, hf, heq⟩ := Option.map_eq_some_iff.1 hact
  cases heq
  obtain ⟨b, s₂', hg, hV⟩ := hstep _ _ hs _ _ hf
  exact ⟨rfl, b, s₂', by simp only [hg, Option.map_some], .ok hV⟩

/-- A step on what belongs to the thread is the same in both calls. -/
theorem mirrors_onThread {f : Thread → Except Fault α × Thread} (hR : Follows env R)
    (hheld : ∀ t, (f t).2.held = t.held) :
    Mirrors env held R (onThread f) (onThread f) (fun a b s₁ s₂ => b = a ∧ R s₁ s₂) R := by
  intro t s₁ s₂ ht hs r₁ t' s₁' hreturns
  obtain ⟨rfl, rfl, hcompany⟩ := returns_onThread_iff.1 hreturns
  obtain ⟨s₂', hcompany', hs'⟩ := hR.trans hs hcompany
  refine ⟨_, s₂', returns_onThread_iff.2 ⟨rfl, rfl, hcompany'⟩, (hheld t).trans ht, ?_⟩
  cases (f t).1 with
  | ok a => exact .ok ⟨rfl, hs'⟩
  | error fault => exact .error hs'

theorem mirrors_emit {event : Event} (hR : Follows env R) :
    Mirrors env held R (emit event) (emit event) (fun _ _ => R) R :=
  (mirrors_onThread hR fun _ => rfl).mono (fun _ _ hs => hs) (fun _ _ _ _ hend => hend.2)
    fun _ _ hs => hs

/-- Two bodies are compared between the steps that their thread takes before and after both. -/
theorem mirrors_between {enter : Thread → Except Fault Unit × Thread} {leave : Thread → Thread}
    {inside : Held} {body₁ : Call S α} {body₂ : Call S β}
    (henter : ∀ t, t.held = held → ∃ entered, enter t = (.ok (), entered) ∧ entered.held = inside)
    (hleave : ∀ t, t.held = inside → (leave t).held = held) (hR : Follows env R)
    (hbody : Mirrors env inside R body₁ body₂ V E) (hV : ∀ a b, Follows env (V a b))
    (hE : Follows env E) :
    Mirrors env held R
      (onThread enter >>= fun _ => body₁.andFinally (onThread fun thread => (.ok (), leave thread)))
      (onThread enter >>= fun _ => body₂.andFinally (onThread fun thread => (.ok (), leave thread)))
      V E := by
  intro t s₁ s₂ hheld hs r₁ t' s₁' hreturns
  obtain ⟨entered, hentered, hinside⟩ := henter t hheld
  obtain ⟨s₃, t₂, s₅, hcompany, hfirst, rfl, hthen⟩ := (returns_between_iff hentered).1 hreturns
  obtain ⟨s₄, hcompany', hs'⟩ := hR.trans hs hcompany
  obtain ⟨r₂, s₆, hfirst', hheld', hend⟩ := hbody _ s₃ s₄ hinside hs' _ _ _ hfirst
  obtain ⟨s₂', hthen', hend'⟩ := hend.follows hV hE hthen
  exact ⟨r₂, s₂', (returns_between_iff hentered).2 ⟨s₄, t₂, s₆, hcompany', hfirst', rfl, hthen'⟩,
    hleave t₂ hheld', hend'⟩

/-- A level is entered by both calls or by neither. -/
theorem mirrors_guarded {level : Level} {body₁ : Call S α} {body₂ : Call S β}
    (hR : Follows env R) (hrefused : level.rank < held.rank → ∀ s₁ s₂, R s₁ s₂ → E s₁ s₂)
    (hbody : held.rank ≤ level.rank → Mirrors env (level :: held) R body₁ body₂ V E)
    (hV : ∀ a b, Follows env (V a b)) (hE : Follows env E) :
    Mirrors env held R (guarded level body₁) (guarded level body₂) V E := by
  by_cases hrank : held.rank ≤ level.rank
  · refine mirrors_between ?_ ?_ hR (hbody hrank) hV hE
    · intro t hheld
      rw [Thread.enter_of_rank_le (hheld ▸ hrank)]
      exact ⟨_, rfl, congrArg (level :: ·) hheld⟩
    · intro t hheld
      simp only [Thread.leave, hheld, Held.leave, List.erase_cons_head]
  · intro t s₁ s₂ hheld hs r₁ t' s₁' hreturns
    have hlt := Nat.lt_of_not_le hrank
    have henter := Thread.enter_of_lt_rank (hheld ▸ hlt : level.rank < t.held.rank)
    obtain ⟨rfl, rfl, hcompany⟩ := (returns_guarded_of_error_iff henter).1 hreturns
    obtain ⟨s₄, hcompany', hs'⟩ := hR.trans hs hcompany
    exact ⟨_, s₄, (returns_guarded_of_error_iff henter).2 ⟨rfl, rfl, hcompany'⟩, hheld,
      .error (hrefused hlt _ _ hs')⟩

/-- One step with a level held that may be entered. -/
theorem mirrors_guarded_atomic {level : Level} {f : S → α × S} {g : S → β × S}
    (hrank : held.rank ≤ level.rank) (hR : Follows env R) (hV : ∀ a b, Follows env (V a b))
    (hstep : ∀ s₁ s₂, R s₁ s₂ → V (f s₁).1 (g s₂).1 (f s₁).2 (g s₂).2) :
    Mirrors env held R (guarded level (atomic f)) (guarded level (atomic g)) V E := by
  have hguarded : Mirrors env held R (guarded level (atomic f)) (guarded level (atomic g)) V
      fun _ _ => False := by
    refine mirrors_guarded hR ?_ (fun _ => mirrors_atomic hR hstep) hV ?_
    · intro hlt
      omega
    · intro _ _ _ hnone
      exact hnone.elim
  exact hguarded.mono (fun _ _ hs => hs) (fun _ _ _ _ hend => hend) fun _ _ hnone => hnone.elim

/-- A span is opened and left by both calls. -/
theorem mirrors_inSpan {span : Span} {body₁ : Call S α} {body₂ : Call S β} (hR : Follows env R)
    (hbody : Mirrors env held R body₁ body₂ V E) (hV : ∀ a b, Follows env (V a b))
    (hE : Follows env E) : Mirrors env held R (inSpan span body₁) (inSpan span body₂) V E :=
  mirrors_between (fun t hheld => ⟨t.report (.opened span), rfl, hheld⟩)
    (fun _ hheld => hheld) hR hbody hV hE

end Call

end MarkSweep
