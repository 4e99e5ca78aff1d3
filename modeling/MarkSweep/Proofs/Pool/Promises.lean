import MarkSweep.Proofs.Pool.Labour

namespace MarkSweep

variable {β ε ρ : Type}

/-- Bodies compute until they come to what was promised of them. -/
def Body.IsTrueTo (B : Body β ε ρ) (promised : β → Outcome ρ → Prop) : Prop :=
  ∀ name thread env body outcome, promised body outcome →
    (∃ env' rest, B.step name thread env body = .next env' rest ∧ promised rest outcome) ∨
      ∃ env', B.step name thread env body = .finish env' outcome

/-- What was promised of a task is promised of what is left of it. -/
theorem Body.IsTrueTo.moves {B : Body β ε ρ} {promised : β → Outcome ρ → Prop} {body rest : β}
    {outcome : Outcome ρ} (hB : B.IsTrueTo promised) (hpromised : promised body outcome)
    (hmoves : B.Moves body rest) : promised rest outcome := by
  obtain ⟨name, thread, env, env', hstep⟩ := hmoves
  obtain ⟨env'', rest', hnext, hrest⟩ | ⟨env'', hfinish⟩ :=
    hB name thread env body outcome hpromised
  · cases hnext.symm.trans hstep
    exact hrest
  · cases hfinish.symm.trans hstep

namespace Scene

variable {B : Body β ε ρ} {promised : β → Outcome ρ → Prop} {fate : Nat → Outcome ρ} {i : Nat}
  {s s' : Scene β ρ}

/-- What `fate` says was promised of every task, and no worker is in the middle of anything that
concerns the pool as a whole. -/
structure Promised (promised : β → Outcome ρ → Prop) (fate : Nat → Outcome ρ) (s : Scene β ρ) :
    Prop where
  running : ∀ i task k, s.places i = (.running task, some k) → promised task.body (fate k)
  queued : ∀ entry ∈ s.ahead, promised entry.1.body (fate entry.2)
  plain : ∀ i, (s.places i).1.isPlain = true

/-- A worker goes to another place. -/
theorem Promised.place (h : s.Promised promised fate) (place : Stage β × Option Nat)
    (hplain : place.1.isPlain = true)
    (hrunning : ∀ task k, place = (.running task, some k) → promised task.body (fate k))
    (board : Board ρ) :
    Promised promised fate { s with places := Function.update s.places i place, board } where
  running j task k hj := by
    by_cases hsame : j = i
    · subst hsame
      exact hrunning task k ((Function.update_self j place s.places).symm.trans hj)
    · exact h.running j task k ((Function.update_of_ne hsame place s.places).symm.trans hj)
  queued := h.queued
  plain j := by
    by_cases hsame : j = i
    · subst hsame
      simpa using hplain
    · simpa [hsame] using h.plain j

/-- A worker that goes on leaves tasks to which the same was promised. -/
theorem Promised.goes (h : s.Promised promised fate) (hB : B.IsTrueTo promised)
    (hgoes : Goes B fate i s s') : s'.Promised promised fate := by
  cases hgoes with
  | @take draining post? task queue hbefore hmay hqueue =>
    have hahead : s.ahead = (task, s.begun.length) :: queue.zipIdx (s.begun ++ [task]).length := by
      rw [ahead, hqueue, List.zipIdx_cons, List.length_append]
      rfl
    have hqueued := h.queued
    rw [hahead, List.forall_mem_cons] at hqueued
    have hplace := h.place (i := i) (.running task, some s.begun.length) rfl
      (fun _ _ heq => by cases heq; exact hqueued.1) s.board
    exact ⟨hplace.running, hqueued.2, hplace.plain⟩
  | rest hbefore hnone =>
    refine h.place _ ?_ ?_ s.board
    · split <;> rfl
    · intro task k heq
      split at heq <;> cases heq
  | advance hbefore hmoves =>
    refine h.place _ rfl (fun _ _ heq => ?_) s.board
    cases heq
    exact hB.moves (h.running i _ _ hbefore) hmoves
  | @finish task k hbefore =>
    refine h.place _ ?_ ?_ _
    · split
      · rfl
      · cases task.audience <;> rfl
    · intro task' k' heq
      split at heq
      · cases heq
      · cases haudience : task.audience <;> rw [haudience] at heq <;> cases heq
  | leave hbefore => exact h.place _ rfl (fun _ _ heq => by cases heq) _

/-- What was promised of tasks is not touched when the queue is dropped. -/
theorem Promised.collapses (h : s.Promised promised fate) (hcollapses : Collapses s s') :
    s'.Promised promised fate := by
  cases hcollapses with
  | stays => exact h
  | drops => exact ⟨h.running, nofun, h.plain⟩

/-- A worker wakes up. -/
theorem Promised.rouse (h : s.Promised promised fate) (i : Nat) :
    Promised promised fate
      { s with
        places := Function.update s.places i ((s.places i).1.woken, (s.places i).2) } := by
  have hplain := h.plain i
  have hrunning := h.running i
  generalize s.places i = place at hplain hrunning
  obtain ⟨stage, post?⟩ := place
  refine h.place _ ?_ ?_ s.board
  · cases stage with
    | parked => rfl
    | _ => exact hplain
  · intro task k heq
    cases stage with
    | running => exact hrunning task k heq
    | _ => cases heq

end Scene

namespace Plant

variable {B : Body β ε ρ} {promised : β → Outcome ρ → Prop} {fate : Nat → Outcome ρ}
  {c c' : Plant β ε ρ} {stands : Nat → Pool.Standing ρ}

/-- Tasks that keep their promises compute and end. -/
theorem modest_of_promised (hB : B.IsTrueTo promised) (h : c.scene.Promised promised fate)
    (horderly : c.Orderly stands) : c.Modest B := by
  intro i worker task hget hunderway
  have hplain := h.plain i
  have hrunning := h.running i
  have hpost := horderly.posted.isSome_post i
  change (c.site.pool.stage i).isPlain = true at hplain
  change ∀ task k, (c.site.pool.stage i, c.post i) = (.running task, some k) → _ at hrunning
  rw [Pool.stage_of_getElem? hget] at hplain hrunning hpost
  rw [hunderway] at hpost
  obtain ⟨k, hk⟩ := Option.isSome_iff_exists.1 hpost
  have hstage : worker.stage = .running task := by
    generalize worker.stage = stage at hplain hunderway
    cases stage with
    | running => cases hunderway; rfl
    | signalling | announcing | closing => cases hplain
    | _ => cases hunderway
  rw [hstage, hk] at hrunning
  refine ⟨hstage, ?_⟩
  obtain ⟨env, rest, hnext, -⟩ | ⟨env, hfinish⟩ := hB (c.site.pool.workerName i) worker.thread
    c.site.env task.body (fate k) (hrunning task k rfl)
  · exact .inl ⟨env, rest, hnext⟩
  · exact .inr ⟨env, fate k, hfinish⟩

/-- They end as was promised. -/
theorem foretells_of_promised (hB : B.IsTrueTo promised) (h : c.scene.Promised promised fate) :
    c.Foretells B fate := by
  intro i k outcome hpost houtcome
  have hrunning := h.running i
  change ∀ task k, (c.site.pool.stage i, c.post i) = (.running task, some k) → _ at hrunning
  unfold Worksite.outcome? at houtcome
  split at houtcome
  · next task thread hget =>
    rw [Pool.stage_of_getElem? hget, hpost] at hrunning
    obtain ⟨env, rest, hnext, -⟩ | ⟨env, hfinish⟩ := hB (c.site.pool.workerName i) thread
      c.site.env task.body (fate k) (hrunning task k rfl)
    · rw [hnext] at houtcome
      cases houtcome
    · rw [hfinish] at houtcome
      cases houtcome
      rfl
  · cases houtcome

/-- Nothing that can happen changes what was promised. -/
theorem promised_labours (hB : B.IsTrueTo promised) (h : c.scene.Promised promised fate)
    (horderly : c.Orderly stands) (hlabours : Labours B c c') :
    c'.scene.Promised promised fate := by
  cases hlabours with
  | work hstep =>
    obtain ⟨-, s, hgoes, hcollapses⟩ := scene_of_workerStep (modest_of_promised hB h horderly)
      (foretells_of_promised hB h) horderly.posted.isSome_post hstep
    exact (h.goes hB hgoes).collapses hcollapses
  | rouse i =>
    rw [scene_rouse]
    exact h.rouse i

/-- What becomes of tasks that keep their promises is known from the beginning. -/
theorem foretold_of_promised (hB : B.IsTrueTo promised) (h : c.scene.Promised promised fate)
    (horderly : c.Orderly stands) (hrun : Relation.ReflTransGen (Labours B) c c') :
    c'.Modest B ∧ c'.Foretells B fate := by
  have hkept : c'.scene.Promised promised fate ∧ c'.Orderly stands := by
    induction hrun with
    | refl => exact ⟨h, horderly⟩
    | tail _ hstep ih => exact ⟨promised_labours hB ih.1 ih.2 hstep, ih.2.labours hstep⟩
  exact ⟨modest_of_promised hB hkept.1 hkept.2, foretells_of_promised hB hkept.1⟩

end Plant

end MarkSweep
