import MarkSweep.Thread

namespace MarkSweep

namespace Routine

variable {σ α β : Type}

/-- Under the veil the second program does what the first one does without it. -/
inductive Shadows (veil : σ → σ) (N : σ → σ → Prop) : Routine σ α → Routine σ α → Prop
  | done (value : α) : Shadows veil N (done value) (done value)
  | step {β : Type} {act act' : Choice → σ → Option (β × σ)} {next next' : β → Routine σ α}
      (hact : ∀ choice s, act' choice (veil s) = (act choice s).map (Prod.map id veil))
      (hmoves : ∀ choice s b s', act choice s = some (b, s') → N s s')
      (hnext : ∀ b, Shadows veil N (next b) (next' b)) :
      Shadows veil N (step act next) (step act' next')

variable {veil : σ → σ} {N N' : σ → σ → Prop}

theorem Shadows.mono {p p' : Routine σ α} (hp : Shadows veil N p p')
    (hN : ∀ s s', N s s' → N' s s') : Shadows veil N' p p' := by
  induction hp with
  | done value => exact .done value
  | step hact hmoves _ ih =>
    exact .step hact (fun choice s b s' hstep => hN s s' (hmoves choice s b s' hstep)) ih

/-- One program after another has the shadows of both, one after the other. -/
theorem shadows_bind {p p' : Routine σ β} {f f' : β → Routine σ α} (hp : Shadows veil N p p')
    (hthen : ∀ b, Shadows veil N (f b) (f' b)) : Shadows veil N (p.bind f) (p'.bind f') := by
  induction hp with
  | done value => exact hthen value
  | step hact hmoves _ ih => exact .step hact hmoves ih

end Routine

namespace Call

variable {S T α β : Type}

/-- Under the veil, which covers only what the thread shares with others, the second call does what
the first one does without it. -/
def Shadows (veil : S → S) (N : S → S → Prop) (call call' : Call S α) : Prop :=
  Routine.Shadows (Prod.map id veil) (fun x y => N x.2 y.2) call call'

/-- What the veil hides makes no difference to the call. It cannot tell, and cannot tell anybody,
what is hidden. -/
abbrev Blind (veil : S → S) (N : S → S → Prop) (call : Call S α) : Prop :=
  Shadows veil N call call

variable {veil : S → S} {N N' : S → S → Prop}

theorem Shadows.mono {call call' : Call S α} (hcall : Shadows veil N call call')
    (hN : ∀ s s', N s s' → N' s s') : Shadows veil N' call call' :=
  Routine.Shadows.mono hcall fun x y => hN x.2 y.2

/-- To nothing hidden every call is blind. -/
theorem blind_id (call : Call S α) : Blind id (fun _ _ => True) call := by
  unfold Blind Shadows
  induction call with
  | done result => exact .done result
  | step act next ih =>
    refine .step ?_ (fun _ _ _ _ _ => trivial) ih
    intro choice x
    simp only [Prod.map_id, Option.map_id, id_eq]

theorem shadows_pure (a : α) : Shadows veil N (pure a) (pure a) :=
  Routine.Shadows.done (Except.ok a)

theorem shadows_fault (f : Fault) : Shadows veil N (fault f : Call S α) (fault f) :=
  Routine.Shadows.done (Except.error f)

theorem shadows_ofExcept (result : Except Fault α) :
    Shadows veil N (ofExcept result) (ofExcept result) :=
  Routine.Shadows.done result

theorem shadows_orFault (answer : Except Failure α) :
    Shadows veil N (orFault answer) (orFault answer) := by
  cases answer with
  | ok a => exact shadows_pure a
  | error failure => exact shadows_fault _

theorem shadows_bind {call call' : Call S β} {f f' : β → Call S α}
    (hcall : Shadows veil N call call') (hthen : ∀ b, Shadows veil N (f b) (f' b)) :
    Shadows veil N (call >>= f) (call' >>= f') := by
  refine Routine.shadows_bind hcall ?_
  rintro (fault | b)
  · exact Routine.Shadows.done (Except.error fault)
  · exact hthen b

theorem shadows_andFinally {body body' : Call S α} {cleanup cleanup' : Call S Unit}
    (hbody : Shadows veil N body body') (hcleanup : Shadows veil N cleanup cleanup') :
    Shadows veil N (body.andFinally cleanup) (body'.andFinally cleanup') := by
  refine Routine.shadows_bind hbody fun result => Routine.shadows_bind hcleanup ?_
  rintro (fault | ⟨⟩)
  · exact Routine.Shadows.done (Except.error fault)
  · exact Routine.Shadows.done result

/-- A single step. -/
private theorem shadows_step {act act' : Choice → Thread × S → Option (β × Thread × S)}
    {g : β → Except Fault α}
    (hact : ∀ choice t s,
      act' choice (t, veil s) = (act choice (t, s)).map (Prod.map id (Prod.map id veil)))
    (hmoves : ∀ choice t s b t' s', act choice (t, s) = some (b, t', s') → N s s') :
    Shadows veil N (Routine.step act fun b => Routine.done (g b))
      (Routine.step act' fun b => Routine.done (g b)) :=
  .step (fun choice x => hact choice x.1 x.2)
    (fun choice x b y hstep => hmoves choice x.1 x.2 b y.1 y.2 hstep) fun b => .done (g b)

theorem shadows_attemptAs {f f' : Thread → S → Except Fault α × S}
    (hf : ∀ t s, f' t (veil s) = Prod.map id veil (f t s)) (hmoves : ∀ t s, N s (f t s).2) :
    Shadows veil N (attemptAs f) (attemptAs f') := by
  refine shadows_step (g := id) ?_ ?_
  · intro choice t s
    exact congrArg (fun after => some (after.1, t, after.2)) (hf t s)
  · rintro choice t s b t' s' ⟨⟩
    exact hmoves t s

theorem shadows_attempt {f f' : S → Except Fault α × S}
    (hf : ∀ s, f' (veil s) = Prod.map id veil (f s)) (hmoves : ∀ s, N s (f s).2) :
    Shadows veil N (attempt f) (attempt f') :=
  shadows_attemptAs (fun _ => hf) fun _ => hmoves

theorem shadows_choose {f f' : Choice → S → Option (α × S)}
    (hf : ∀ choice s, f' choice (veil s) = (f choice s).map (Prod.map id veil))
    (hmoves : ∀ choice s a s', f choice s = some (a, s') → N s s') :
    Shadows veil N (choose f) (choose f') := by
  refine shadows_step (g := Except.ok) ?_ ?_
  · intro choice t s
    change (f' choice (veil s)).map _ = ((f choice s).map _).map _
    rw [hf, Option.map_map, Option.map_map]
    rfl
  · intro choice t s b t' s' hstep
    obtain ⟨⟨a, after⟩, hoffer, heq⟩ := Option.map_eq_some_iff.1 hstep
    cases heq
    exact hmoves choice s _ _ hoffer

theorem shadows_await {f f' : S → Option (α × S)}
    (hf : ∀ s, f' (veil s) = (f s).map (Prod.map id veil))
    (hmoves : ∀ s a s', f s = some (a, s') → N s s') : Shadows veil N (await f) (await f') :=
  shadows_choose (fun _ => hf) fun _ => hmoves

theorem shadows_atomic {f f' : S → α × S} (hf : ∀ s, f' (veil s) = Prod.map id veil (f s))
    (hmoves : ∀ s, N s (f s).2) : Shadows veil N (atomic f) (atomic f') := by
  refine shadows_step (g := Except.ok) ?_ ?_
  · intro choice t s
    exact congrArg (fun after => some (after.1, t, after.2)) (hf s)
  · rintro choice t s b t' s' ⟨⟩
    exact hmoves s

theorem shadows_update {f f' : S → S} (hf : ∀ s, f' (veil s) = veil (f s))
    (hmoves : ∀ s, N s (f s)) : Shadows veil N (update f) (update f') :=
  shadows_atomic (fun s => congrArg (Prod.mk ()) (hf s)) hmoves

section Still

variable (hN : ∀ s, N s s)

include hN

theorem shadows_read {f : S → α} (hf : ∀ s, f (veil s) = f s) :
    Shadows veil N (read f) (read f) :=
  shadows_atomic (fun s => congrArg (·, veil s) (hf s)) hN

theorem shadows_onThread (f : Thread → Except Fault α × Thread) :
    Shadows veil N (onThread f) (onThread f) := by
  refine shadows_step (g := id) (fun _ _ _ => rfl) ?_
  rintro choice t s b t' s' ⟨⟩
  exact hN s

theorem shadows_emit (event : Event) : Shadows veil N (emit event) (emit event) :=
  shadows_onThread hN _

theorem shadows_guarded {level : Level} {body body' : Call S α}
    (hbody : Shadows veil N body body') :
    Shadows veil N (guarded level body) (guarded level body') :=
  shadows_bind (shadows_onThread hN _) fun _ =>
    shadows_andFinally hbody (shadows_onThread hN _)

theorem shadows_inSpan {span : Span} {body body' : Call S α} (hbody : Shadows veil N body body') :
    Shadows veil N (inSpan span body) (inSpan span body') :=
  shadows_bind (shadows_onThread hN _) fun _ =>
    shadows_andFinally hbody (shadows_onThread hN _)

end Still

/-- A call on a part of the shared state. -/
theorem shadows_focus {veil' : T → T} {M : T → T → Prop} {get : T → S} {set : S → T → T}
    {call call' : Call S α} (hget : ∀ t, get (veil' t) = veil (get t))
    (hset : ∀ s t, set (veil s) (veil' t) = veil' (set s t))
    (hmoves : ∀ s t, N (get t) s → M t (set s t)) (hcall : Shadows veil N call call') :
    Shadows veil' M (call.focus get set) (call'.focus get set) := by
  unfold Shadows at hcall
  generalize hview : Prod.map (id : Thread → Thread) veil = view at hcall
  generalize hchange : (fun x y : Thread × S => N x.2 y.2) = change at hcall
  induction hcall with
  | done result => exact .done result
  | step hact hstep _ ih =>
    subst hview hchange
    refine .step ?_ ?_ ih
    · rintro choice ⟨t, x⟩
      have hoffer := hact choice (t, get x)
      simp only [Prod.map, id_eq] at hoffer
      simp only [Prod.map, id_eq, hget, hoffer, Option.map_map]
      refine congrArg (Option.map · _) ?_
      funext ⟨b, t', s⟩
      exact congrArg (fun y => (b, t', y)) (hset s x)
    · rintro choice ⟨t, x⟩ b ⟨t', x'⟩ hact'
      obtain ⟨⟨b, t', s⟩, hoffer, heq⟩ := Option.map_eq_some_iff.1 hact'
      cases heq
      exact hmoves s x (hstep choice (t, get x) _ _ hoffer)

end Call

end MarkSweep
