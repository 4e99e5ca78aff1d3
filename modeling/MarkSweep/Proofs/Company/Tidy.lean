import MarkSweep.Proofs.Company.Discipline
import MarkSweep.Proofs.Locking

namespace MarkSweep

/-- Whether a message is the wording of a lock that was asked for out of order. -/
def TellsDisorder (message : String) : Prop :=
  ∃ level held, message = (Fault.lockOrder level held).payload.message

/-- Whether a failure passes on that a task asked for a lock out of order. -/
def Failure.IsDisorder : Failure → Prop
  | taskFaulted message => TellsDisorder message
  | poolShutDown | safepointTimeout _ _ | workerSpawn _ => False

/-- Whether a lock was asked for out of order, by the thread itself or by a task. -/
def Fault.IsDisorder : Fault → Prop
  | lockOrder _ _ => True
  | failed failure => failure.IsDisorder
  | reraised payload => TellsDisorder payload.message
  | _ => False

/-- Below a level that may be entered is every level that may be entered within. -/
theorem Held.rank_cons_le {level inner : Level} {held : Held} (hrank : held.rank ≤ level.rank)
    (hinner : level.rank ≤ inner.rank) : rank (level :: held) ≤ inner.rank := by
  rw [rank_cons]
  exact Nat.max_le.2 ⟨hinner, Nat.le_trans hrank hinner⟩

namespace Call

variable {S T α β : Type}

/-- Programs that stand where they hold these lock levels, and keep `J`. -/
def tidiness (J : S → Prop) : Discipline Held (Thread × S) where
  relies held x := x.1.held = held ∧ J x.2
  prompt _ := False
  barred _ := False
  moves _ _ _ held y := y.1.held = held ∧ J y.2

/-- The value satisfies `V`, and a fault of a calm thread is not about the order of locks. -/
def Clean (calm : Prop) (V : α → Prop) : Except Fault α → Prop
  | .ok a => V a
  | .error fault => calm → ¬fault.IsDisorder

/-- The call keeps `J`, and at its end the thread holds the levels that it held before. -/
def Tidy (J : S → Prop) (calm : Prop) (V : α → Prop) (held : Held) (call : Call S α) : Prop :=
  Keeps (tidiness J) (fun held' result => held' = held ∧ Clean calm V result) call held

variable {J : S → Prop} {calm : Prop} {V : α → Prop} {W : β → Prop} {held : Held}

theorem tidy_pure {a : α} (ha : V a) : Tidy J calm V held (pure a) := ⟨rfl, ha⟩

theorem tidy_fault {f : Fault} (hf : calm → ¬f.IsDisorder) : Tidy J calm V held (fault f) :=
  ⟨rfl, hf⟩

/-- A call is tidy if its second part is tidy after any value of its first. -/
theorem tidy_bind {call : Call S β} {f : β → Call S α} (hcall : Tidy J calm W held call)
    (hthen : ∀ b, W b → Tidy J calm V held (f b)) : Tidy J calm V held (call >>= f) := by
  refine keeps_bind hcall ?_ ?_
  · rintro k b ⟨rfl, hb⟩
    exact hthen b hb
  · rintro k fault ⟨hk, hfault⟩
    exact ⟨hk, hfault⟩

/-- Whatever the first of two calls answers, the second is tidy. -/
theorem tidy_seq {call : Call S β} {f : β → Call S α}
    (hcall : Tidy J calm (fun _ => True) held call) (hthen : ∀ b, Tidy J calm V held (f b)) :
    Tidy J calm V held (call >>= f) :=
  tidy_bind hcall fun b _ => hthen b

/-- A single step that leaves alone which levels the thread holds. -/
private theorem tidy_step {act : Choice → Thread × S → Option (β × Thread × S)}
    {g : β → Except Fault α}
    (hact : ∀ choice t s b t' s', t.held = held → J s → act choice (t, s) = some (b, t', s') →
      t'.held = held ∧ J s' ∧ Clean calm V (g b)) :
    Tidy J calm V held (Routine.step act fun b => Routine.done (g b)) := by
  refine ⟨False.elim, ?_⟩
  rintro choice ⟨t, s⟩ b ⟨t', s'⟩ ⟨hheld, hs⟩ hstep
  obtain ⟨hheld', hs', hclean⟩ := hact choice t s b t' s' hheld hs hstep
  exact ⟨held, ⟨hheld', hs'⟩, rfl, hclean⟩

theorem tidy_onThread {f : Thread → Except Fault α × Thread}
    (hf : ∀ t, t.held = held → (f t).2.held = held ∧ Clean calm V (f t).1) :
    Tidy J calm V held (onThread f) := by
  refine tidy_step (g := id) ?_
  intro choice t s result t' s' hheld hs hstep
  cases hstep
  exact ⟨(hf t hheld).1, hs, (hf t hheld).2⟩

theorem tidy_emit {event : Event} : Tidy J calm (fun _ => True) held (emit event) :=
  tidy_onThread fun _ hheld => ⟨hheld, trivial⟩

theorem tidy_attemptAs {f : Thread → S → Except Fault α × S}
    (hf : ∀ t s, t.held = held → J s → J (f t s).2 ∧ Clean calm V (f t s).1) :
    Tidy J calm V held (attemptAs f) := by
  refine tidy_step (g := id) ?_
  intro choice t s result t' s' hheld hs hstep
  cases hstep
  exact ⟨hheld, hf t s hheld hs⟩

theorem tidy_attempt {f : S → Except Fault α × S}
    (hf : ∀ s, J s → J (f s).2 ∧ Clean calm V (f s).1) : Tidy J calm V held (attempt f) :=
  tidy_attemptAs fun _ s _ hs => hf s hs

theorem tidy_choose {f : Choice → S → Option (α × S)}
    (hf : ∀ choice s a s', J s → f choice s = some (a, s') → J s' ∧ V a) :
    Tidy J calm V held (choose f) := by
  refine tidy_step (g := Except.ok) ?_
  intro choice t s a t' s' hheld hs hstep
  obtain ⟨⟨b, after⟩, hoffer, heq⟩ := Option.map_eq_some_iff.1 hstep
  cases heq
  exact ⟨hheld, hf choice s a s' hs hoffer⟩

theorem tidy_await {f : S → Option (α × S)}
    (hf : ∀ s a s', J s → f s = some (a, s') → J s' ∧ V a) : Tidy J calm V held (await f) :=
  tidy_choose fun _ => hf

theorem tidy_atomic {f : S → α × S} (hf : ∀ s, J s → J (f s).2 ∧ V (f s).1) :
    Tidy J calm V held (atomic f) := by
  refine tidy_step (g := Except.ok) ?_
  intro choice t s a t' s' hheld hs hstep
  cases hstep
  exact ⟨hheld, hf s hs⟩

theorem tidy_read {f : S → α} (hf : ∀ s, J s → V (f s)) : Tidy J calm V held (read f) :=
  tidy_atomic fun s hs => ⟨hs, hf s hs⟩

theorem tidy_update {f : S → S} (hf : ∀ s, J s → J (f s)) :
    Tidy J calm (fun _ => True) held (update f) :=
  tidy_atomic fun s hs => ⟨hf s hs, trivial⟩

/-- What is done at the end of a call is done on both exits. -/
theorem tidy_andFinally {body : Call S α} {cleanup : Call S Unit}
    (hbody : Tidy J calm V held body) (hcleanup : Tidy J calm (fun _ => True) held cleanup) :
    Tidy J calm V held (body.andFinally cleanup) := by
  refine keeps_andFinally hbody ?_
  rintro k result ⟨rfl, hresult⟩
  refine Routine.Keeps.mono hcleanup ?_
  rintro k (fault | ⟨⟩) ⟨hk, hclean⟩
  · exact ⟨hk, hclean⟩
  · exact ⟨hk, hresult⟩

/-- A level is given back whatever comes of the body. A calm thread must be able to enter it. -/
theorem tidy_guarded {level : Level} {body : Call S α} (hrank : calm → held.rank ≤ level.rank)
    (hbody : Tidy J calm V (level :: held) body) : Tidy J calm V held (guarded level body) := by
  refine keeps_bind (R := fun k result => (k = level :: held ∧ result = .ok ()) ∨
    (k = held ∧ ¬calm ∧ ∃ fault, result = .error fault)) ⟨False.elim, ?_⟩ ?_ ?_
  · rintro choice ⟨t, s⟩ result ⟨t', s'⟩ ⟨hheld, hs⟩ hstep
    cases hstep
    by_cases hlow : t.held.rank ≤ level.rank
    · rw [Thread.enter_of_rank_le hlow]
      exact ⟨level :: held, ⟨congrArg _ hheld, hs⟩, .inl ⟨rfl, rfl⟩⟩
    · rw [Thread.enter_of_lt_rank (Nat.lt_of_not_le hlow)]
      refine ⟨held, ⟨hheld, hs⟩, .inr ⟨rfl, fun hcalm => hlow ?_, _, rfl⟩⟩
      exact hheld ▸ hrank hcalm
  · rintro k ⟨⟩ (⟨rfl, -⟩ | ⟨-, -, fault, hresult⟩)
    · refine keeps_andFinally hbody ?_
      rintro k result ⟨rfl, hclean⟩
      refine ⟨False.elim, ?_⟩
      rintro choice ⟨t, s⟩ undone ⟨t', s'⟩ ⟨hheld, hs⟩ hstep
      cases hstep
      refine ⟨held, ⟨?_, hs⟩, rfl, hclean⟩
      rw [Thread.leave, hheld, Held.leave, List.erase_cons_head]
    · cases hresult
  · rintro k fault (⟨-, hresult⟩ | ⟨rfl, hcalm, -⟩)
    · cases hresult
    · exact ⟨rfl, fun h => absurd h hcalm⟩

theorem tidy_inSpan {span : Span} {body : Call S α} (hbody : Tidy J calm V held body) :
    Tidy J calm V held (inSpan span body) :=
  tidy_seq (tidy_onThread fun _ hheld => ⟨hheld, trivial⟩) fun _ =>
    tidy_andFinally hbody (tidy_onThread fun _ hheld => ⟨hheld, trivial⟩)

theorem tidy_ofExcept {result : Except Fault α} (hresult : Clean calm V result) :
    Tidy J calm V held (ofExcept result) := ⟨rfl, hresult⟩

theorem tidy_orFault {answer : Except Failure α} (hvalue : ∀ a, answer = .ok a → V a)
    (hfailure : ∀ failure, answer = .error failure → ¬failure.IsDisorder) :
    Tidy J calm V held (orFault answer) := by
  cases answer with
  | ok a => exact tidy_pure (hvalue a rfl)
  | error failure => exact tidy_fault fun _ => hfailure failure rfl

/-- A call on a part of the shared state. -/
theorem tidy_focus {K : T → Prop} {get : T → S} {set : S → T → T} {call : Call S α}
    (hget : ∀ x, K x → J (get x)) (hset : ∀ s x, K x → J s → K (set s x))
    (hcall : Tidy J calm V held call) : Tidy K calm V held (call.focus get set) := by
  unfold Tidy Keeps at hcall ⊢
  generalize hE : (fun (held' : Held) result => held' = held ∧ Clean calm V result) = E
    at hcall ⊢
  clear hE
  generalize held = k at hcall ⊢
  change Routine.Keeps _ E call k at hcall
  induction call generalizing k with
  | done result => exact hcall
  | step act next ih =>
    refine ⟨False.elim, ?_⟩
    rintro choice ⟨t, x⟩ b ⟨t', x'⟩ ⟨hheld, hx⟩ hact
    obtain ⟨⟨b, t₁, s⟩, hstep, heq⟩ := Option.map_eq_some_iff.1 hact
    cases heq
    obtain ⟨k', ⟨hheld', hs⟩, hnext⟩ := hcall.2 choice (t, get x) b (t', s) ⟨hheld, hget x hx⟩ hstep
    exact ⟨k', ⟨hheld', hset s x hx hs⟩, ih b k' hnext⟩

end Call

end MarkSweep
