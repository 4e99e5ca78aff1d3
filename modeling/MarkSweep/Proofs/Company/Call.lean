import MarkSweep.Proofs.Company.Routine
import MarkSweep.Proofs.Locking

namespace MarkSweep

namespace Call

variable {S T α β : Type}

/-- What is required of the end of a call: of its value or fault, of the thread and of the state. -/
abbrev Post (S α : Type) := Except Fault α → Thread → S → Prop

/-- The call ends with a value that satisfies `B`, and the thread is `t` then. -/
def Yields (t : Thread) (B : α → S → Prop) : Post S α :=
  fun result t' s => ∃ a, result = .ok a ∧ t' = t ∧ B a s

/-- The surroundings of a thread change what it shares. -/
def Beside (env : S → S → Prop) (before after : Thread × S) : Prop :=
  after.1 = before.1 ∧ env before.2 after.2

/-- In company, a call that is made by the thread `t` in a state that satisfies `A` ends only with
`Q`; if it is to be `live`, something can always happen until then.

The surroundings leave the thread alone, so a postcondition may say exactly which levels the thread
holds and what it has reported. -/
def Meets (env : S → S → Prop) (live : Prop) (A : S → Prop) (t : Thread) (call : Call S α)
    (Q : Post S α) : Prop :=
  ∀ s, A s → Routine.Attains (Beside env) live (fun result x => Q result x.1 x.2) call (t, s)

/-- The surroundings of a thread that shares its state with nobody. -/
def Nobody (_ _ : S) : Prop := False

theorem stable_nobody (A : S → Prop) : Stable Nobody A := fun _ _ _ henv => henv.elim

variable {env : S → S → Prop} {live : Prop} {A : S → Prop} {t t' : Thread} {Q R : Post S α}

theorem Meets.mono {A' : S → Prop} {call : Call S α} (hcall : Meets env live A t call Q)
    (hpre : ∀ s, A' s → A s) (hpost : ∀ result t' s, Q result t' s → R result t' s) :
    Meets env live A' t call R :=
  fun s hs => (hcall s (hpre s hs)).mono fun result x hx => hpost result x.1 x.2 hx

theorem Meets.mono_post {call : Call S α} (hcall : Meets env live A t call Q)
    (hpost : ∀ result t' s, Q result t' s → R result t' s) : Meets env live A t call R :=
  hcall.mono (fun _ hs => hs) hpost

/-- What is fixed before a call may be used for it. -/
theorem meets_exists {ι : Sort*} {A : ι → S → Prop} {call : Call S α}
    (hcall : ∀ i, Meets env live (A i) t call Q) :
    Meets env live (fun s => ∃ i, A i s) t call Q := by
  rintro s ⟨i, hi⟩
  exact hcall i s hi

theorem meets_given {φ : Prop} {call : Call S α} (hcall : φ → Meets env live A t call Q) :
    Meets env live (fun s => φ ∧ A s) t call Q :=
  fun s hs => hcall hs.1 s hs.2

theorem meets_pure {a : α} (hpost : ∀ s, A s → Q (.ok a) t s) :
    Meets env live A t (pure a) Q := hpost

theorem meets_fault {f : Fault} (hpost : ∀ s, A s → Q (.error f) t s) :
    Meets env live A t (fault f) Q := hpost

/-- The fault of the first of two calls ends both. Here and in what follows the surroundings may
depend on the thread. -/
theorem attains_bind {env : Thread × S → Thread × S → Prop} {call : Call S β} {f : β → Call S α}
    {Q : Except Fault α → Thread × S → Prop} {x : Thread × S}
    (hcall : Routine.Attains env live (fun result y =>
      match result with
      | .ok b => Routine.Attains env live Q (f b) y
      | .error e => Q (.error e) y) call x) :
    Routine.Attains env live Q (call >>= f : Call S α) x := by
  refine Routine.attains_bind.2 (hcall.mono ?_)
  rintro (e | b) y hy
  · exact hy
  · exact hy

/-- What a call has to undo it undoes on both exits. -/
theorem attains_andFinally {env : Thread × S → Thread × S → Prop} {body : Call S α}
    {cleanup : Call S Unit} {Q : Except Fault α → Thread × S → Prop} {x : Thread × S}
    (hbody : Routine.Attains env live (fun result y =>
      Routine.Attains env live (fun undone z =>
        match undone with
        | .ok () => Q result z
        | .error e => Q (.error e) z) cleanup y) body x) :
    Routine.Attains env live Q (body.andFinally cleanup) x := by
  refine Routine.attains_bind.2 (hbody.mono fun result y hy => ?_)
  refine Routine.attains_bind.2 (hy.mono ?_)
  rintro (e | ⟨⟩) z hz
  · exact hz
  · exact hz

section Steps

variable {env : Thread × S → Thread × S → Prop} {A : Thread × S → Prop}
  {Q : Except Fault α → Thread × S → Prop} {x : Thread × S}

theorem attains_onThread {f : Thread → Except Fault α × Thread} (hA : Stable env A) (hx : A x)
    (hf : ∀ t s, A (t, s) → Q (f t).1 ((f t).2, s)) :
    Routine.Attains env False Q (onThread f) x := by
  refine Routine.attains_step hA hx ?_
  rintro ⟨t, s⟩ hx choice result y hact
  cases hact
  exact hf t s hx

theorem attains_atomic {f : S → α × S} (hA : Stable env A) (hx : A x)
    (hf : ∀ t s, A (t, s) → Q (.ok (f s).1) (t, (f s).2)) :
    Routine.Attains env False Q (atomic f) x := by
  refine Routine.attains_step hA hx ?_
  rintro ⟨t, s⟩ hx choice a y hact
  cases hact
  exact hf t s hx

theorem attains_await {f : S → Option (α × S)} (hA : Stable env A) (hx : A x)
    (hf : ∀ t s, A (t, s) → ∀ a s', f s = some (a, s') → Q (.ok a) (t, s')) :
    Routine.Attains env False Q (await f) x := by
  refine Routine.attains_step hA hx ?_
  rintro ⟨t, s⟩ hx choice a y hact
  obtain ⟨⟨a, s'⟩, hstep, heq⟩ := Option.map_eq_some_iff.1 hact
  cases heq
  exact hf t s hx a s' hstep

end Steps

/-- The second of two calls begins where the first has ended with a value. -/
theorem meets_bind {call : Call S β} {f : β → Call S α} {R : Post S β}
    (hcall : Meets env live A t call R)
    (hthen : ∀ b t', Meets env live (R (.ok b) t') t' (f b) Q)
    (hfault : ∀ e t' s, R (.error e) t' s → Q (.error e) t' s) :
    Meets env live A t (call >>= f) Q := by
  intro s hs
  refine attains_bind ((hcall s hs).mono ?_)
  rintro (e | b) ⟨t', s'⟩ hr
  · exact hfault e t' s' hr
  · exact hthen b t' s' hr

/-- A call that does not fault is followed by the next. -/
theorem meets_bind_yields (t' : Thread) {call : Call S β} {f : β → Call S α} {B : β → S → Prop}
    (hcall : Meets env live A t call (Yields t' B))
    (hthen : ∀ b, Meets env live (B b) t' (f b) Q) : Meets env live A t (call >>= f) Q := by
  refine meets_bind hcall ?_ ?_
  · rintro b t'' s ⟨b', hb, rfl, hs⟩
    cases hb
    exact hthen b s hs
  · rintro e t'' s ⟨b', hb, -, -⟩
    cases hb

/-- A call whose value is passed on under another name. -/
theorem meets_map {call : Call S β} {R : Post S β} (f : β → α)
    (hcall : Meets env live A t call R) :
    Meets env live A t (do return f (← call))
      fun result t' s => ∃ result', result = result'.map f ∧ R result' t' s := by
  apply meets_bind hcall
  · intro b t'
    exact meets_pure fun s hend => ⟨.ok b, rfl, hend⟩
  · intro fault t' s hend
    exact ⟨.error fault, rfl, hend⟩

theorem meets_discard {call : Call S β} {B : S → Prop}
    (hcall : Meets env live A t call fun _ _ => B) :
    Meets env live A t (do let _ ← call) fun _ _ => B :=
  meets_bind hcall (fun _ _ => meets_pure fun _ hs => hs) fun _ _ _ hs => hs

/-- A single step, before which the surroundings may change what they like but not `A`. -/
private theorem meets_step {act : Choice → Thread × S → Option (β × Thread × S)}
    {g : β → Except Fault α} (hA : Stable env A)
    (hcan : live → ∀ s, A s → (∃ choice after, act choice (t, s) = some after) ∨ ∃ s', env s s')
    (hact : ∀ s, A s → ∀ choice b t' s',
      act choice (t, s) = some (b, t', s') → Q (g b) t' s') :
    Meets env live A t (Routine.step act fun b => Routine.done (g b)) Q := by
  intro s hs
  rintro ⟨t', s'⟩ hcompany
  have hreached : t' = t ∧ A s' := by
    have hstable : Stable (Beside env) fun x : Thread × S => x.1 = t ∧ A x.2 := by
      rintro ⟨t₁, s₁⟩ ⟨t₂, s₂⟩ ⟨ht, hs⟩ ⟨hthread, henv⟩
      exact ⟨hthread.trans ht, hA s₁ s₂ hs henv⟩
    exact hstable.trans ⟨rfl, hs⟩ hcompany
  obtain ⟨rfl, hs'⟩ := hreached
  refine ⟨?_, ?_⟩
  · intro hlive
    obtain ⟨choice, ⟨b, after⟩, hstep⟩ | ⟨s'', henv⟩ := hcan hlive s' hs'
    · exact .inl ⟨choice, b, after, hstep⟩
    · exact .inr ⟨(t', s''), rfl, henv⟩
  · rintro choice b ⟨t'', s''⟩ hstep
    exact hact s' hs' choice b t'' s'' hstep

theorem meets_attempt {f : S → Except Fault α × S} (hA : Stable env A)
    (hf : ∀ s, A s → Q (f s).1 t (f s).2) : Meets env live A t (attempt f) Q := by
  refine meets_step (g := id) hA (fun _ s _ => .inl ⟨0, _, rfl⟩) ?_
  intro s hs choice result t' s' hstep
  cases hstep
  exact hf s hs

theorem meets_atomic {f : S → α × S} (hA : Stable env A)
    (hf : ∀ s, A s → Q (.ok (f s).1) t (f s).2) : Meets env live A t (atomic f) Q := by
  refine meets_step (g := Except.ok) hA (fun _ s _ => .inl ⟨0, _, rfl⟩) ?_
  intro s hs choice a t' s' hstep
  cases hstep
  exact hf s hs

theorem meets_read {f : S → α} (hA : Stable env A) (hf : ∀ s, A s → Q (.ok (f s)) t s) :
    Meets env live A t (read f) Q :=
  meets_atomic hA hf

theorem meets_update {f : S → S} {Q : Post S Unit} (hA : Stable env A)
    (hf : ∀ s, A s → Q (.ok ()) t (f s)) : Meets env live A t (update f) Q :=
  meets_atomic hA hf

/-- A step that may have to wait needs someone who goes on meanwhile. -/
theorem meets_await {f : S → Option (α × S)} (hA : Stable env A)
    (hcan : live → ∀ s, A s → f s = none → ∃ s', env s s')
    (hf : ∀ s, A s → ∀ a s', f s = some (a, s') → Q (.ok a) t s') :
    Meets env live A t (await f) Q := by
  refine meets_step (g := Except.ok) hA ?_ ?_
  · intro hlive s hs
    rcases hstep : f s with _ | ⟨a, s'⟩
    · exact .inr (hcan hlive s hs hstep)
    · exact .inl ⟨0, (a, t, s'), by simp only [hstep, Option.map_some]⟩
  · intro s hs choice a t' s' hstep
    obtain ⟨⟨b, s''⟩, hstep, heq⟩ := Option.map_eq_some_iff.1 hstep
    cases heq
    exact hf s hs a s' hstep

theorem meets_choose {f : Choice → S → α × S} (hA : Stable env A)
    (hf : ∀ s, A s → ∀ choice, Q (.ok (f choice s).1) t (f choice s).2) :
    Meets env live A t (choose fun choice s => some (f choice s)) Q := by
  refine meets_step (g := Except.ok) hA (fun _ s _ => .inl ⟨0, _, rfl⟩) ?_
  intro s hs choice a t' s' hstep
  cases hstep
  exact hf s hs choice

theorem meets_onThread {f : Thread → Except Fault α × Thread} (hA : Stable env A)
    (hf : ∀ s, A s → Q (f t).1 (f t).2 s) : Meets env live A t (onThread f) Q := by
  refine meets_step (g := id) hA (fun _ s _ => .inl ⟨0, _, rfl⟩) ?_
  intro s hs choice result t' s' hstep
  cases hstep
  exact hf s hs

theorem meets_emit {event : Event} (hA : Stable env A) :
    Meets env live A t (emit event) (Yields (t.report (.event event)) fun _ => A) :=
  meets_onThread hA fun _ hs => ⟨(), rfl, rfl, hs⟩

/-- What is undone at the end is undone whatever came of the body. -/
theorem meets_andFinally {body : Call S α} {cleanup : Call S Unit} {R : Post S α}
    (hbody : Meets env live A t body R)
    (hcleanup : ∀ result t', Meets env live (R result t') t' cleanup fun undone t'' s =>
      match undone with
      | .ok () => Q result t'' s
      | .error f => Q (.error f) t'' s) :
    Meets env live A t (body.andFinally cleanup) Q := by
  intro s hs
  refine attains_andFinally ((hbody s hs).mono fun result x hx => ?_)
  refine (hcleanup result x.1 x.2 hx).mono ?_
  rintro (f | ⟨⟩) y hy
  · exact hy
  · exact hy

/-- A level that may be entered is held during the body and given back afterwards. -/
theorem meets_guarded {level : Level} {body : Call S α} {t₁ : Thread}
    (henter : t.enter level = .ok t₁) (hA : Stable env A)
    (hbody : Meets env live A t₁ body R) (hR : ∀ result t', Stable env (R result t'))
    (hleave : ∀ result t' s, R result t' s → Q result (t'.leave level) s) :
    Meets env live A t (guarded level body) Q := by
  refine meets_bind_yields t₁ (B := fun _ => A) ?_ fun _ => ?_
  · apply meets_onThread hA
    intro s hs
    rw [henter]
    exact ⟨(), rfl, rfl, hs⟩
  · apply meets_andFinally hbody
    intro result t'
    exact meets_onThread (hR result t') fun s hs => hleave result t' s hs

/-- A level that may not be entered ends the call at once. -/
theorem meets_guarded_of_error {level : Level} {body : Call S α} {f : Fault}
    (henter : t.enter level = .error f) (hA : Stable env A)
    (hpost : ∀ s, A s → Q (.error f) t s) : Meets env live A t (guarded level body) Q := by
  refine meets_bind (R := fun result t' s => result = .error f ∧ t' = t ∧ A s) ?_ ?_ ?_
  · refine meets_onThread hA fun s hs => ?_
    rw [henter]
    exact ⟨rfl, rfl, hs⟩
  · rintro b t' s ⟨hb, -⟩
    cases hb
  · rintro e t' s ⟨he, rfl, hs⟩
    cases he
    exact hpost s hs

/-- One step with a level held. -/
theorem meets_guarded_atomic {level : Level} {f : S → α × S} {B : α → S → Prop} {t₁ : Thread}
    (henter : t.enter level = .ok t₁) (hA : Stable env A) (hB : ∀ a, Stable env (B a))
    (hf : ∀ s, A s → B (f s).1 (f s).2) :
    Meets env live A t (guarded level (atomic f)) (Yields t B) := by
  refine meets_guarded (R := Yields t₁ B) henter hA ?_ ?_ ?_
  · exact meets_atomic hA fun s hs => ⟨_, rfl, rfl, hf s hs⟩
  · rintro result t' s s' ⟨a, ha, ht, hs⟩ henv
    exact ⟨a, ha, ht, hB a s s' hs henv⟩
  · rintro result t' s ⟨a, ha, rfl, hs⟩
    exact ⟨a, ha, Thread.leave_of_enter henter, hs⟩

theorem meets_inSpan {span : Span} {body : Call S α} (hA : Stable env A)
    (hbody : Meets env live A (t.report (.opened span)) body R)
    (hR : ∀ result t', Stable env (R result t'))
    (hleave : ∀ result t' s, R result t' s → Q result (t'.report (.left span)) s) :
    Meets env live A t (inSpan span body) Q := by
  have hopened : ∀ s, A s → Yields (t.report (.opened span)) (fun _ : Unit => A) (.ok ())
      (t.report (.opened span)) s := fun _ hs => ⟨(), rfl, rfl, hs⟩
  refine meets_bind_yields _ (meets_onThread hA hopened) fun _ => ?_
  refine meets_andFinally hbody fun result t' => ?_
  exact meets_onThread (hR result t') fun s hs => hleave result t' s hs

section Focus

variable {get : T → S} {set : S → T → T}

/-- A call on a part of a state goes on on that part. -/
theorem focus_bind (call : Call S β) (f : β → Call S α) :
    (call >>= f).focus get set = call.focus get set >>= fun b => (f b).focus get set := by
  apply (Routine.focus_bind _ _ _ _).trans
  refine congrArg (Routine.bind _) (funext fun result => ?_)
  cases result <;> rfl

theorem focus_atomic (f : S → α × S) :
    (atomic f).focus get set = atomic fun t => ((f (get t)).1, set (f (get t)).2 t) := rfl

theorem focus_onThread (hset : ∀ t, set (get t) t = t)
    (f : Thread → Except Fault α × Thread) : (onThread f).focus get set = onThread f := by
  refine congrArg (fun act => Routine.step act Routine.done) (funext fun _ => funext fun x => ?_)
  exact congrArg (fun t => some ((f x.1).1, (f x.1).2, t)) (hset x.2)

/-- A call on a part of a state undoes there what it has to undo. -/
theorem focus_andFinally (body : Call S α) (cleanup : Call S Unit) :
    (body.andFinally cleanup).focus get set =
      (body.focus get set).andFinally (cleanup.focus get set) := by
  apply (Routine.focus_bind _ _ _ _).trans
  refine congrArg (Routine.bind _) (funext fun result => ?_)
  apply (Routine.focus_bind _ _ _ _).trans
  refine congrArg (Routine.bind _) (funext fun undone => ?_)
  cases undone <;> rfl

/-- The lock levels belong to the thread and not to the part of the state. -/
theorem focus_guarded (hset : ∀ t, set (get t) t = t) (level : Level) (body : Call S α) :
    (guarded level body).focus get set = guarded level (body.focus get set) := by
  unfold guarded
  rw [focus_bind, focus_onThread hset]
  simp only [focus_andFinally, focus_onThread hset]

/-- A call on a part of the state does there what it does without company, as long as its
surroundings keep `A` and the part. -/
theorem meets_focus {env : T → T → Prop} {A : T → Prop} {s : S} {call : Call S α} {Q : Post S α}
    (hget : ∀ s x, get (set s x) = s) (hA : ∀ x x', A x → env x x' → A x' ∧ get x' = get x)
    (hset : ∀ s x, A x → A (set s x))
    (hcall : Meets Nobody True (fun s' => s' = s) t call Q) :
    Meets env live (fun x => A x ∧ get x = s) t (call.focus get set)
      (fun result t' x => A x ∧ Q result t' (get x)) := by
  intro x hx
  obtain ⟨hx, rfl⟩ := hx
  refine Routine.attains_focus (fun y : Thread × T => (y.1, get y.2))
    (fun z y => (z.1, set z.2 y.2)) (A := fun y => A y.2) ?_ ?_ ?_ ?_ (t, x) hx
    (hcall (get x) rfl)
  · intro s s' hstep
    exact hstep.2
  · intro s y
    exact Prod.ext rfl (hget s.2 y.2)
  · intro y y' hy hstep
    obtain ⟨hA', heq⟩ := hA y.2 y'.2 hy hstep.2
    exact ⟨hA', Prod.ext hstep.1 heq⟩
  · intro s y hy
    exact hset s.2 y.2 hy

end Focus

end Call

end MarkSweep
