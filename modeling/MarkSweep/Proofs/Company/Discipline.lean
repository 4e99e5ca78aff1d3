import MarkSweep.Proofs.Company.Routine
import MarkSweep.Thread

namespace MarkSweep

/-- Where programs may stand, and what they may do there.

What can come of many calls is found out from what each of them may do wherever it stands, without
regard to the others. -/
structure Discipline (κ σ : Type) where
  /-- What a program relies on; the others see to it. -/
  relies : κ → σ → Prop
  /-- Where the next step can be taken in every state. -/
  prompt : κ → Prop
  /-- The states in which some steps have to wait. -/
  barred : σ → Prop
  /-- What a step may do to the standing and to the state. It may depend on whether the step has to
  wait in every barred state. -/
  moves : (waits : Prop) → κ → σ → κ → σ → Prop

/-- A step that cannot be taken in a state that satisfies `barred`. -/
def WaitsOut {σ β : Type} (barred : σ → Prop) (act : Choice → σ → Option (β × σ)) : Prop :=
  ∀ choice s, barred s → act choice s = none

namespace Routine

variable {κ σ α β : Type} {D : Discipline κ σ} {E E' : κ → α → Prop} {k : κ}

/-- From where it stands the program keeps the discipline, and it ends only where `E` allows its
value. -/
def Keeps (D : Discipline κ σ) (E : κ → α → Prop) : Routine σ α → κ → Prop
  | done value, k => E k value
  | step act next, k =>
    (D.prompt k → ∀ s, ∃ choice b s', act choice s = some (b, s')) ∧
      ∀ choice s b s', D.relies k s → act choice s = some (b, s') →
        ∃ k', D.moves (WaitsOut D.barred act) k s k' s' ∧ Keeps D E (next b) k'

theorem Keeps.mono {p : Routine σ α} (hp : p.Keeps D E k) (hends : ∀ k a, E k a → E' k a) :
    p.Keeps D E' k := by
  induction p generalizing k with
  | done value => exact hends k value hp
  | step act next ih =>
    refine ⟨hp.1, ?_⟩
    intro choice s b s' hrelies hact
    obtain ⟨k', hmoves, hnext⟩ := hp.2 choice s b s' hrelies hact
    exact ⟨k', hmoves, ih b hnext⟩

/-- A program that goes on where another one ends keeps the discipline if both do. -/
theorem keeps_bind {R : κ → β → Prop} {p : Routine σ β} {f : β → Routine σ α}
    (hp : p.Keeps D R k) (hthen : ∀ k b, R k b → (f b).Keeps D E k) :
    (p.bind f).Keeps D E k := by
  induction p generalizing k with
  | done value => exact hthen k value hp
  | step act next ih =>
    refine ⟨hp.1, ?_⟩
    intro choice s b s' hrelies hact
    obtain ⟨k', hmoves, hnext⟩ := hp.2 choice s b s' hrelies hact
    exact ⟨k', hmoves, ih b hnext⟩

/-- Every step of the program changes the state as `N` says, and none has to wait in every state
that satisfies `barred`. -/
def Respects (N : σ → σ → Prop) (barred : σ → Prop) : Routine σ α → Prop
  | done _ => True
  | step act next =>
    ¬WaitsOut barred act ∧
      ∀ choice s b s', act choice s = some (b, s') → N s s' ∧ Respects N barred (next b)

theorem respects_bind {N : σ → σ → Prop} {barred : σ → Prop} {p : Routine σ β}
    {f : β → Routine σ α} (hp : p.Respects N barred) (hthen : ∀ b, (f b).Respects N barred) :
    (p.bind f).Respects N barred := by
  induction p with
  | done value => exact hthen value
  | step act next ih =>
    refine ⟨hp.1, ?_⟩
    intro choice s b s' hact
    obtain ⟨hN, hnext⟩ := hp.2 choice s b s' hact
    exact ⟨hN, ih b hnext⟩

theorem Respects.mono {N N' : σ → σ → Prop} {barred : σ → Prop} {p : Routine σ α}
    (hp : p.Respects N barred) (hN : ∀ s s', N s s' → N' s s') : p.Respects N' barred := by
  induction p with
  | done value => trivial
  | step act next ih =>
    refine ⟨hp.1, ?_⟩
    intro choice s b s' hact
    obtain ⟨hchange, hnext⟩ := hp.2 choice s b s' hact
    exact ⟨hN s s' hchange, ih b hnext⟩

/-- A program that stays where it stands. -/
theorem Respects.keeps {N : σ → σ → Prop} {p : Routine σ α} (hp : p.Respects N D.barred)
    (hprompt : ¬D.prompt k) (hN : ∀ waits s s', ¬waits → N s s' → D.moves waits k s k s')
    (hends : ∀ a, E k a) : p.Keeps D E k := by
  induction p with
  | done value => exact hends value
  | step act next ih =>
    refine ⟨fun hk => absurd hk hprompt, ?_⟩
    intro choice s b s' _ hact
    obtain ⟨hchange, hnext⟩ := hp.2 choice s b s' hact
    exact ⟨k, hN _ s s' hp.1 hchange, ih b hnext⟩

/-- What the steps of a program keep, and its surroundings too, holds at its end. -/
theorem Respects.attains {env : σ → σ → Prop} {I barred : σ → Prop} {p : Routine σ α}
    (hp : p.Respects (fun s s' => I s → I s') barred) (hI : Stable env I) {s : σ} (hs : I s) :
    Attains env False (fun _ => I) p s := by
  induction p generalizing s with
  | done value => exact hs
  | step act next ih =>
    refine attains_step hI hs ?_
    intro s hs choice b s' hact
    obtain ⟨hkeeps, hnext⟩ := hp.2 choice s b s' hact
    exact ih b hnext (hkeeps hs)

/-- It holds at every moment until then. -/
theorem Respects.holds {env : σ → σ → Prop} {I barred : σ → Prop} {p p' : Routine σ α}
    (hp : p.Respects (fun s s' => I s → I s') barred) (hI : Stable env I) {s s' : σ} (hs : I s)
    (hsteps : Relation.ReflTransGen (Together env) (p, s) (p', s')) : I s' := by
  suffices hall : ∀ after, Relation.ReflTransGen (Together env) (p, s) after →
      after.1.Respects (fun s s' => I s → I s') barred ∧ I after.2 from (hall _ hsteps).2
  intro after hsteps
  induction hsteps with
  | refl => exact ⟨hp, hs⟩
  | tail _ hstep ih =>
    obtain ⟨hrespects, hbefore⟩ := ih
    cases hstep with
    | own hact =>
      obtain ⟨hkeeps, hnext⟩ := hrespects.2 _ _ _ _ hact
      exact ⟨hnext, hkeeps hbefore⟩
    | others henv => exact ⟨hrespects, hI _ _ hbefore henv⟩

/-- What surroundings do only outside `W` does not concern a program that stays within. -/
theorem Attains.within {env env' : σ → σ → Prop} {live : Prop} {Q : α → σ → Prop}
    {W barred : σ → Prop} {p : Routine σ α} {s : σ} (hp : Attains env' live Q p s)
    (hwithin : p.Respects (fun s s' => W s → W s') barred) (hs : W s)
    (henv : ∀ s s', W s → env s s' → env' s s' ∧ W s') : Attains env False Q p s := by
  induction p generalizing s with
  | done value => exact hp
  | step act next ih =>
    intro s' hothers
    -- Before each step the others may take any number of theirs, and all of them begin in `W`.
    have hreached : Relation.ReflTransGen env' s s' ∧ W s' := by
      induction hothers with
      | refl => exact ⟨.refl, hs⟩
      | tail _ hstep ihsteps =>
        obtain ⟨hsteps, hbefore⟩ := ihsteps
        obtain ⟨hstep', hafter⟩ := henv _ _ hbefore hstep
        exact ⟨hsteps.tail hstep', hafter⟩
    refine ⟨False.elim, fun choice b s'' hact => ?_⟩
    obtain ⟨hkeeps, hrest⟩ := hwithin.2 choice s' b s'' hact
    exact ih b ((hp s' hreached.1).2 choice b s'' hact) hrest (hkeeps hreached.2)

end Routine

namespace Call

variable {κ S α β : Type} {D : Discipline κ (Thread × S)} {E : κ → Except Fault α → Prop} {k : κ}

/-- From where it stands the call keeps the discipline. -/
abbrev Keeps (D : Discipline κ (Thread × S)) (E : κ → Except Fault α → Prop) (call : Call S α)
    (k : κ) : Prop :=
  Routine.Keeps D E call k

/-- Every step of the call changes the thread and the state as `N` says, and none has to wait in
every state that satisfies `barred`. -/
abbrev Respects (N : Thread × S → Thread × S → Prop) (barred : Thread × S → Prop)
    (call : Call S α) : Prop :=
  Routine.Respects N barred call

/-- The fault of the first of two calls ends both. -/
theorem keeps_bind {R : κ → Except Fault β → Prop} {call : Call S β} {f : β → Call S α}
    (hcall : Keeps D R call k) (hthen : ∀ k b, R k (.ok b) → Keeps D E (f b) k)
    (hfault : ∀ k e, R k (.error e) → E k (.error e)) : Keeps D E (call >>= f) k := by
  refine Routine.keeps_bind hcall ?_
  rintro k (e | b) hR
  · exact hfault k e hR
  · exact hthen k b hR

/-- The call ends, with the program standing at `j`, with a value of which `P` holds. -/
def Gives (j : κ) (P : β → Prop) (k : κ) (result : Except Fault β) : Prop :=
  k = j ∧ ∃ b, P b ∧ result = .ok b

/-- What follows a call that does not fault. -/
theorem keeps_bind_gives {j : κ} {P : β → Prop} {call : Call S β} {f : β → Call S α}
    (hcall : Keeps D (Gives j P) call k) (hthen : ∀ b, P b → Keeps D E (f b) j) :
    Keeps D E (call >>= f) k := by
  refine keeps_bind hcall ?_ ?_
  · rintro _ b ⟨rfl, _, hP, hresult⟩
    cases hresult
    exact hthen b hP
  · rintro _ fault ⟨-, _, -, hresult⟩
    cases hresult

/-- What is undone at the end keeps the discipline from wherever the body has ended. -/
theorem keeps_andFinally {R : κ → Except Fault α → Prop} {body : Call S α} {cleanup : Call S Unit}
    (hbody : Keeps D R body k)
    (hcleanup : ∀ k result, R k result → Keeps D (fun k undone =>
      match undone with
      | .ok () => E k result
      | .error e => E k (.error e)) cleanup k) : Keeps D E (body.andFinally cleanup) k := by
  refine Routine.keeps_bind hbody fun k result hR => ?_
  refine Routine.keeps_bind (hcleanup k result hR) ?_
  rintro k (e | ⟨⟩) hends
  · exact hends
  · exact hends

section Respects

variable {N : Thread × S → Thread × S → Prop} {barred : Thread × S → Prop}

theorem respects_pure (a : α) : Respects N barred (pure a : Call S α) := trivial

theorem respects_bind {call : Call S β} {f : β → Call S α} (hcall : Respects N barred call)
    (hthen : ∀ b, Respects N barred (f b)) : Respects N barred (call >>= f) := by
  refine Routine.respects_bind hcall ?_
  rintro (e | b)
  · trivial
  · exact hthen b

theorem respects_andFinally {body : Call S α} {cleanup : Call S Unit}
    (hbody : Respects N barred body) (hcleanup : Respects N barred cleanup) :
    Respects N barred (body.andFinally cleanup) := by
  refine Routine.respects_bind hbody fun result => Routine.respects_bind hcleanup ?_
  rintro (e | ⟨⟩) <;> trivial

/-- A step that can be taken in some barred state. -/
theorem not_waitsOut {act : Choice → Thread × S → Option (β × Thread × S)} {x : Thread × S}
    {y : β × Thread × S} (hx : barred x) (hact : act 0 x = some y) : ¬WaitsOut barred act := by
  intro hwaits
  rw [hwaits 0 x hx] at hact
  cases hact

theorem respects_onThread {f : Thread → Except Fault α × Thread} (hbarred : ∃ x, barred x)
    (hN : ∀ t s, N (t, s) ((f t).2, s)) : Respects N barred (onThread f : Call S α) := by
  obtain ⟨x, hx⟩ := hbarred
  refine ⟨not_waitsOut hx rfl, ?_⟩
  rintro choice ⟨t, s⟩ b s' hact
  cases hact
  exact ⟨hN t s, trivial⟩

theorem respects_atomic {f : S → α × S} (hbarred : ∃ x, barred x)
    (hN : ∀ t s, N (t, s) (t, (f s).2)) : Respects N barred (atomic f) := by
  obtain ⟨x, hx⟩ := hbarred
  refine ⟨not_waitsOut hx rfl, ?_⟩
  rintro choice ⟨t, s⟩ b s' hact
  cases hact
  exact ⟨hN t s, trivial⟩

theorem respects_choose {f : Choice → S → α × S} (hbarred : ∃ x, barred x)
    (hN : ∀ choice t s, N (t, s) (t, (f choice s).2)) :
    Respects N barred (choose fun choice s => some (f choice s)) := by
  obtain ⟨x, hx⟩ := hbarred
  refine ⟨not_waitsOut hx rfl, ?_⟩
  rintro choice ⟨t, s⟩ b s' hact
  cases hact
  exact ⟨hN choice t s, trivial⟩

/-- A step that has to wait needs a barred state in which it does not. -/
theorem respects_await {f : S → Option (α × S)} {x : Thread × S} (hx : barred x)
    (hoffer : ∃ y, f x.2 = some y) (hN : ∀ t s a s', f s = some (a, s') → N (t, s) (t, s')) :
    Respects N barred (await f) := by
  obtain ⟨y, hoffer⟩ := hoffer
  refine ⟨not_waitsOut (y := (y.1, x.1, y.2)) hx ?_, ?_⟩
  · simp only [hoffer, Option.map_some]
  · rintro choice ⟨t, s⟩ b s' hact
    obtain ⟨⟨a, s''⟩, hstep, heq⟩ := Option.map_eq_some_iff.1 hact
    cases heq
    exact ⟨hN t s _ s'' hstep, trivial⟩

/-- A call with a level held takes the steps of its body, and two that change what its thread
holds. -/
theorem respects_guarded {level : Level} {body : Call S α} (hbarred : ∃ x, barred x)
    (hN : ∀ t held s, N (t, s) ({ t with held }, s)) (hbody : Respects N barred body) :
    Respects N barred (guarded level body) := by
  refine respects_bind (respects_onThread hbarred fun t s => ?_) fun _ => ?_
  · cases henter : t.enter level with
    | error f => exact hN t t.held s
    | ok t' =>
      unfold Thread.enter at henter
      split at henter <;> cases henter
      exact hN t _ s
  · exact respects_andFinally hbody (respects_onThread hbarred fun t s => hN t _ s)

/-- A call in a span takes the steps of its body and two that report. -/
theorem respects_inSpan {span : Span} {body : Call S α} (hbarred : ∃ x, barred x)
    (hopened : ∀ t s, N (t, s) (t.report (.opened span), s))
    (hleft : ∀ t s, N (t, s) (t.report (.left span), s)) (hbody : Respects N barred body) :
    Respects N barred (inSpan span body) :=
  respects_bind (respects_onThread hbarred hopened) fun _ =>
    respects_andFinally hbody (respects_onThread hbarred hleft)

end Respects

end Call

/-- A call that some thread has made, and what is left of it. -/
structure Visit (ε S α : Type) : Type 1 where
  /-- What it is about. -/
  errand : ε
  /-- The thread as it was when it made the call. -/
  caller : Thread
  /-- The thread as it is now. -/
  thread : Thread
  rest : Call S α

/-- One more call leaves the others in their places. -/
theorem getElem?_concat_cases {α : Type 1} {l : List α} {a b : α} {i : Nat}
    (hget : (l ++ [a])[i]? = some b) : i = l.length ∧ a = b ∨ i ≠ l.length ∧ l[i]? = some b := by
  obtain ⟨hlt, hget⟩ := List.getElem?_eq_some_iff.1 hget
  rw [List.length_append, List.length_singleton] at hlt
  rw [List.getElem_append] at hget
  split at hget
  · next hi => exact .inr ⟨Nat.ne_of_lt hi, List.getElem?_eq_some_iff.2 ⟨hi, hget⟩⟩
  · exact .inl ⟨by omega, by simpa using hget⟩

/-- So does another one in the place of a call. -/
theorem getElem?_set_cases {α : Type*} {l : List α} {a b : α} {i j : Nat}
    (hget : (l.set i a)[j]? = some b) : i = j ∧ a = b ∨ i ≠ j ∧ l[j]? = some b := by
  by_cases hij : i = j
  · subst hij
    have hlt := (List.getElem?_eq_some_iff.1 hget).1
    rw [List.length_set] at hlt
    rw [List.getElem?_set_self hlt] at hget
    exact .inl ⟨rfl, Option.some.inj hget⟩
  · rw [List.getElem?_set_ne hij] at hget
    exact .inr ⟨hij, hget⟩

namespace Visit

variable {ε S α : Type}

/-- The answer of a call that has ended. -/
def answer? (visit : Visit ε S α) : Option (Except Fault α) :=
  match visit.rest with
  | .done result => some result
  | .step _ _ => none

/-- Whether the next step of a call has to wait in every state that satisfies `barred`. -/
def WaitsOut (barred : Thread × S → Prop) (visit : Visit ε S α) : Prop :=
  match visit.rest with
  | .done _ => False
  | .step act _ => MarkSweep.WaitsOut barred act

/-- A call takes its next step. -/
inductive Step : Visit ε S α → S → Visit ε S α → S → Prop
  | own {errand : ε} {caller thread thread' : Thread} {s s' : S} {β : Type}
      {act : Choice → Thread × S → Option (β × Thread × S)}
      {next : β → Routine (Thread × S) (Except Fault α)} {choice : Choice} {b : β}
      (hact : act choice (thread, s) = some (b, thread', s')) :
      Step ⟨errand, caller, thread, .step act next⟩ s ⟨errand, caller, thread', next b⟩ s'

/-- A step in the ordinary course. -/
theorem Step.ordinary {errand : ε} {caller thread thread' : Thread} {s s' : S} {β : Type}
    {act : Choice → Thread × S → Option (β × Thread × S)}
    {next : β → Routine (Thread × S) (Except Fault α)} {b : β}
    (hact : act 0 (thread, s) = some (b, thread', s')) :
    Step ⟨errand, caller, thread, .step act next⟩ s ⟨errand, caller, thread', next b⟩ s' :=
  .own hact

/-- The next step of a call, as the environment decides. -/
def next? (choice : Choice) (visit : Visit ε S α) (s : S) : Option (Visit ε S α × S) :=
  match visit.rest with
  | .done _ => none
  | .step act next =>
    (act choice (visit.thread, s)).map fun (b, thread, s) =>
      ({ visit with thread, rest := next b }, s)

theorem Step.of_next? {choice : Choice} {visit visit' : Visit ε S α} {s s' : S}
    (hnext : visit.next? choice s = some (visit', s')) : Step visit s visit' s' := by
  obtain ⟨errand, caller, thread, rest⟩ := visit
  cases rest with
  | done value => cases hnext
  | step act next =>
    obtain ⟨⟨b, thread', s''⟩, hact, heq⟩ := Option.map_eq_some_iff.1 hnext
    cases heq
    exact .own hact

/-- Every step of a call is one that some choice of the environment brings about. -/
theorem Step.exists_next? {visit visit' : Visit ε S α} {s s' : S}
    (hstep : Step visit s visit' s') : ∃ choice, visit.next? choice s = some (visit', s') := by
  cases hstep with
  | @own _ _ _ _ _ _ _ _ _ choice _ hact => exact ⟨choice, congrArg (Option.map _) hact⟩

variable {κ : Type} {D : Discipline κ (Thread × S)} {E : κ → Except Fault α → Prop} {k : κ}
  {visit visit' : Visit ε S α} {s s' : S}

/-- What a step of a call that keeps a discipline does. -/
theorem Step.keeps (hstep : Step visit s visit' s') (hkeeps : visit.rest.Keeps D E k)
    (hrelies : D.relies k (visit.thread, s)) :
    ∃ k', D.moves (visit.WaitsOut D.barred) k (visit.thread, s) k' (visit'.thread, s') ∧
      visit'.rest.Keeps D E k' := by
  cases hstep with
  | own hact => exact hkeeps.2 _ _ _ _ hrelies hact

/-- A call stays the call that it is. -/
theorem Step.errand_eq (hstep : Step visit s visit' s') :
    visit'.errand = visit.errand ∧ visit'.caller = visit.caller := by
  cases hstep
  exact ⟨rfl, rfl⟩

/-- A call that has ended has ended where the discipline allows it. -/
theorem ends_of_answer? {result : Except Fault α} (hkeeps : visit.rest.Keeps D E k)
    (hanswer : visit.answer? = some result) : E k result := by
  obtain ⟨errand, caller, thread, rest⟩ := visit
  cases rest with
  | done value =>
    cases hanswer
    exact hkeeps
  | step act next => cases hanswer

/-- Where it need not wait, a call that has not ended can take a step. -/
theorem exists_step (hkeeps : visit.rest.Keeps D E k) (hprompt : D.prompt k)
    (hanswer : visit.answer? = none) (s : S) : ∃ visit' s', Step visit s visit' s' := by
  obtain ⟨errand, caller, thread, rest⟩ := visit
  cases rest with
  | done value => cases hanswer
  | step act next =>
    obtain ⟨choice, b, ⟨thread', s'⟩, hact⟩ := hkeeps.1 hprompt (thread, s)
    exact ⟨_, _, .own hact⟩

end Visit

end MarkSweep
