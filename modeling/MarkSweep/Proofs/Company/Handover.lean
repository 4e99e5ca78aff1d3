import MarkSweep.Proofs.Company.Call
import MarkSweep.Proofs.Company.Discipline

namespace MarkSweep

/-- What a program and its surroundings keep to until some step of the program, and from then on.

Up to that step the surroundings are `before`, and what they do is taken down in a note; the steps
of the program are as `move` says. From then on the surroundings are `after`. Into a state that
satisfies `gate` the program only goes from one that satisfies `check`. -/
structure Handover (κ σ : Type) where
  before : κ × σ → κ × σ → Prop
  after : σ → σ → Prop
  move : σ → σ → Prop
  gate : σ → Prop
  check : κ × σ → Prop

namespace Routine

variable {κ σ α β : Type} {H : Handover κ σ} {Q R : α → κ × σ → Prop} {Q' R' : α → σ → Prop}
  {x y : κ × σ}

/-- The program ends with `Q` unless it hands over, and with `Q'` if it does. -/
def HandsOver (H : Handover κ σ) (Q : α → κ × σ → Prop) (Q' : α → σ → Prop) :
    Routine σ α → κ × σ → Prop
  | done value, x => Q value x
  | step act next, x =>
    ∀ y, Relation.ReflTransGen H.before x y → ∀ choice b s, act choice y.2 = some (b, s) →
      (H.move y.2 s ∧ HandsOver H Q Q' (next b) (y.1, s)) ∨
        ((H.gate s → H.check y) → Attains H.after False Q' (next b) s)

theorem HandsOver.mono {p : Routine σ α} (hp : HandsOver H Q Q' p x)
    (hQ : ∀ a y, Q a y → R a y) (hQ' : ∀ a s, Q' a s → R' a s) : HandsOver H R R' p x := by
  induction p generalizing x with
  | done value => exact hQ value x hp
  | step act next ih =>
    intro y henv choice b s hact
    exact (hp y henv choice b s hact).imp (fun hstays => ⟨hstays.1, ih b hstays.2⟩)
      fun hpasses hcheck => (hpasses hcheck).mono hQ'

/-- One program after another hands over in the first, or in the second. -/
theorem handsOver_bind {p : Routine σ β} {f : β → Routine σ α}
    (hp : HandsOver H (fun b => HandsOver H Q Q' (f b)) (fun b => Attains H.after False Q' (f b))
      p x) : HandsOver H Q Q' (p.bind f) x := by
  induction p generalizing x with
  | done value => exact hp
  | step act next ih =>
    intro y henv choice b s hact
    exact (hp y henv choice b s hact).imp (fun hstays => ⟨hstays.1, ih b hstays.2⟩)
      fun hpasses hcheck => attains_bind.2 (hpasses hcheck)

/-- A program that nothing is asked of may hand over with its first step. -/
theorem handsOver_of_forall {p : Routine σ α} (hQ : ∀ a y, Q a y) (hQ' : ∀ a s, Q' a s) :
    HandsOver H Q Q' p x := by
  cases p with
  | done value => exact hQ value x
  | step act next => exact fun y _ choice b s _ => .inr fun _ => attains_of_forall hQ'

/-- A step that does not hand over. -/
theorem handsOver_step {A : κ × σ → Prop} {act : Choice → σ → Option (β × σ)}
    {next : β → Routine σ α} (hA : Stable H.before A) (hx : A x)
    (hact : ∀ y, A y → ∀ choice b s, act choice y.2 = some (b, s) →
      H.move y.2 s ∧ HandsOver H Q Q' (next b) (y.1, s)) : HandsOver H Q Q' (step act next) x :=
  fun y henv choice b s hstep => .inl (hact y (hA.trans hx henv) choice b s hstep)

/-- A part of a program that stays in `W` and does not hand over.

There it attains `Q i` in the surroundings `env i`, for every `i` that bounds what is noted of the
others, and whatever bounds it in the end has bounded it all the time. -/
theorem handsOver_of_attains {ι : Type} (W : σ → Prop) (bounds : κ → ι → Prop)
    (env : ι → σ → σ → Prop) {live : Prop} {Q : ι → α → σ → Prop} {barred : σ → Prop}
    {p : Routine σ α}
    (hp : ∀ i, bounds x.1 i → Attains (env i) live (Q i) p x.2)
    (hmoves : p.Respects (fun s s' => W s → W s' ∧ H.move s s') barred) (hx : W x.2)
    (henv : ∀ y z, W y.2 → H.before y z →
      W z.2 ∧ ∀ i, bounds z.1 i → bounds y.1 i ∧ env i y.2 z.2) :
    HandsOver H (fun a y => W y.2 ∧ ∀ i, bounds y.1 i → Q i a y.2) Q' p x := by
  induction p generalizing x with
  | done value => exact ⟨hx, hp⟩
  | step act next ih =>
    intro y hothers
    have hreached : W y.2 ∧ ∀ i, bounds y.1 i →
        bounds x.1 i ∧ Relation.ReflTransGen (env i) x.2 y.2 := by
      induction hothers with
      | refl => exact ⟨hx, fun _ hbounds => ⟨hbounds, .refl⟩⟩
      | tail _ hstep ihsteps =>
        obtain ⟨hafter, hbounded⟩ := henv _ _ ihsteps.1 hstep
        refine ⟨hafter, fun i hbounds => ?_⟩
        obtain ⟨hearlier, hlast⟩ := hbounded i hbounds
        exact ⟨(ihsteps.2 i hearlier).1, (ihsteps.2 i hearlier).2.tail hlast⟩
    obtain ⟨hwithin, hsteps⟩ := hreached
    intro choice b s hact
    obtain ⟨hmove, hnext⟩ := hmoves.2 choice y.2 b s hact
    obtain ⟨hstays, hmoved⟩ := hmove hwithin
    refine .inl ⟨hmoved, ih b (fun i hbounds => ?_) hnext hstays⟩
    obtain ⟨hbefore, hothers⟩ := hsteps i hbounds
    exact (hp i hbefore y.2 hothers).2 choice b s hact

/-- Every first step of the program leads from `A` through the gate. -/
def OpensGate (H : Handover κ σ) (A : κ × σ → Prop) : Routine σ α → Prop
  | done _ => False
  | step act _ => ∀ x, A x → ∀ choice b s, act choice x.2 = some (b, s) → H.gate s

theorem OpensGate.bind {A : κ × σ → Prop} {p : Routine σ β} (hp : p.OpensGate H A)
    (f : β → Routine σ α) : (p.bind f).OpensGate H A := by
  cases p with
  | done _ => exact hp.elim
  | step _ _ => exact hp

/-- Where the check holds, a program that goes through the gate at once may rely on it. -/
theorem handsOver_of_opensGate {A : κ × σ → Prop} {p : Routine σ α} (hopens : p.OpensGate H A)
    (hA : Stable H.before A) (hx : A x)
    (hthen : ∀ y, A y → H.check y → Attains H.after False Q' p y.2) : HandsOver H Q Q' p x := by
  cases p with
  | done _ => exact hopens.elim
  | step act next =>
    intro y henv choice b s hact
    have hy := hA.trans hx henv
    refine .inr fun hcheck => ?_
    exact (hthen y hy (hcheck (hopens y hy choice b s hact)) y.2 .refl).2 choice b s hact

/-- What may be handed over in a state may be handed over after a change by the surroundings. -/
theorem HandsOver.others {p : Routine σ α} (hp : HandsOver H Q Q' p x)
    (hQ : ∀ value, Stable H.before (Q value)) (henv : H.before x y) : HandsOver H Q Q' p y := by
  cases p with
  | done value => exact hQ value x y hp henv
  | step act next => exact fun z hthen => hp z (.head henv hthen)

end Routine

namespace Call

variable {κ S α β : Type} {H : Handover κ (Thread × S)} {Q : Except Fault α → κ × Thread × S → Prop}
  {Q' : Except Fault α → Thread × S → Prop} {x : κ × Thread × S}

/-- The fault of the first of two calls ends both. -/
theorem handsOver_bind {call : Call S β} {f : β → Call S α}
    (hcall : Routine.HandsOver H
      (fun result y =>
        match result with
        | .ok b => Routine.HandsOver H Q Q' (f b) y
        | .error e => Q (.error e) y)
      (fun result y =>
        match result with
        | .ok b => Routine.Attains H.after False Q' (f b) y
        | .error e => Q' (.error e) y) call x) :
    Routine.HandsOver H Q Q' (call >>= f : Call S α) x := by
  refine Routine.handsOver_bind (hcall.mono ?_ ?_)
  · rintro (e | b) y hy
    · exact hy
    · exact hy
  · rintro (e | b) y hy
    · exact hy
    · exact hy

/-- What a call has to undo it undoes on both exits. -/
theorem handsOver_andFinally {body : Call S α} {cleanup : Call S Unit}
    (hbody : Routine.HandsOver H
      (fun result y => Routine.HandsOver H
        (fun undone z =>
          match undone with
          | .ok () => Q result z
          | .error e => Q (.error e) z)
        (fun undone z =>
          match undone with
          | .ok () => Q' result z
          | .error e => Q' (.error e) z) cleanup y)
      (fun result y => Routine.Attains H.after False (fun undone z =>
        match undone with
        | .ok () => Q' result z
        | .error e => Q' (.error e) z) cleanup y) body x) :
    Routine.HandsOver H Q Q' (body.andFinally cleanup) x := by
  refine Routine.handsOver_bind (hbody.mono (fun result y hy => ?_) fun result y hy => ?_)
  · refine Routine.handsOver_bind (hy.mono ?_ ?_)
    · rintro (e | ⟨⟩) z hz
      · exact hz
      · exact hz
    · rintro (e | ⟨⟩) z hz
      · exact hz
      · exact hz
  · refine Routine.attains_bind.2 (hy.mono ?_)
    rintro (e | ⟨⟩) z hz
    · exact hz
    · exact hz

/-- A call that does not hand over unless it comes to nothing. Then it may undo what it has to as it
likes, and otherwise it keeps what it has come to. -/
theorem handsOver_andFinally_of_keeps {F : Except Fault α → Prop} {body : Call S α}
    {cleanup : Call S Unit} (hfault : ∀ e, F (.error e))
    (hfree : ∀ result z, F result → Q' result z)
    (hbody : Routine.HandsOver H (fun result _ => F result) Q' body x)
    (hkeeps : ∀ result y, Q' result y →
      Routine.Attains H.after False (fun _ => Q' result) cleanup y) :
    Routine.HandsOver H (fun result _ => F result) Q' (body.andFinally cleanup) x := by
  refine handsOver_andFinally (hbody.mono (fun result y hF => ?_) fun result y hy => ?_)
  · refine Routine.handsOver_of_forall ?_ ?_
    · rintro (e | ⟨⟩) z
      · exact hfault e
      · exact hF
    · rintro (e | ⟨⟩) z
      · exact hfree _ z (hfault e)
      · exact hfree _ z hF
  · refine (hkeeps result y hy).mono ?_
    rintro (e | ⟨⟩) z hz
    · exact hfree _ z (hfault e)
    · exact hz

section Steps

variable {A : κ × Thread × S → Prop}

theorem handsOver_onThread {f : Thread → Except Fault α × Thread} (hA : Stable H.before A)
    (hx : A x) (hf : ∀ k t s, A (k, t, s) →
      H.move (t, s) ((f t).2, s) ∧ Q (f t).1 (k, (f t).2, s)) :
    Routine.HandsOver H Q Q' (onThread f) x := by
  refine Routine.handsOver_step hA hx ?_
  rintro ⟨k, t, s⟩ hx choice result y hact
  cases hact
  exact hf k t s hx

theorem handsOver_atomic {f : S → α × S} (hA : Stable H.before A) (hx : A x)
    (hf : ∀ k t s, A (k, t, s) → H.move (t, s) (t, (f s).2) ∧ Q (.ok (f s).1) (k, t, (f s).2)) :
    Routine.HandsOver H Q Q' (atomic f) x := by
  refine Routine.handsOver_step hA hx ?_
  rintro ⟨k, t, s⟩ hx choice a y hact
  cases hact
  exact hf k t s hx

theorem handsOver_await {f : S → Option (α × S)} (hA : Stable H.before A) (hx : A x)
    (hf : ∀ k t s, A (k, t, s) → ∀ a s', f s = some (a, s') →
      H.move (t, s) (t, s') ∧ Q (.ok a) (k, t, s')) : Routine.HandsOver H Q Q' (await f) x := by
  refine Routine.handsOver_step hA hx ?_
  rintro ⟨k, t, s⟩ hx choice a y hact
  obtain ⟨⟨a, s'⟩, hstep, heq⟩ := Option.map_eq_some_iff.1 hact
  cases heq
  exact hf k t s hx a s' hstep

end Steps

/-- To take a level leads through the gate if whoever has taken it is behind the gate. -/
theorem opensGate_guarded {A : κ × Thread × S → Prop} {level : Level} {body : Call S α}
    (hgate : ∀ k t s, A (k, t, s) → ∃ t', t.enter level = .ok t' ∧ H.gate (t', s)) :
    Routine.OpensGate H A (guarded level body) := by
  rintro ⟨k, t, s⟩ hx choice b y hact
  cases hact
  obtain ⟨t', henter, hopened⟩ := hgate k t s hx
  rw [henter]
  exact hopened

end Call

end MarkSweep
