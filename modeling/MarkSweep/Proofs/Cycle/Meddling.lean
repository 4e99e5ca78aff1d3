import MarkSweep.Proofs.Cycle.Confined

namespace MarkSweep

/-- How far a collection has come with its marks. -/
inductive Progress
  /-- Its mark phase is over, or it has not begun. -/
  | aside
  /-- It has begun, and its mark phase has not. -/
  | clearing
  | tracing
deriving DecidableEq

/-- How far it has come when it reports this. -/
def Progress.after (progress : Progress) : Record → Progress
  | .opened (.collection _) => .clearing
  | .opened (.phase .mark) => .tracing
  | .left (.phase .mark) => .aside
  | _ => progress

/-- How far a collection has come, by what its thread has reported since it was `caller`. -/
def Thread.progress (caller thread : Thread) : Progress :=
  (thread.trace.take (thread.trace.length - caller.trace.length)).foldr
    (fun record progress => progress.after record) .aside

namespace Thread

variable {caller thread : Thread} {progress : Progress}

/-- The thread has come so far since it was `caller`. -/
structure IsAt (caller : Thread) (progress : Progress) (thread : Thread) : Prop where
  since : caller.trace.length ≤ thread.trace.length
  progress : caller.progress thread = progress

theorem isAt_self (caller : Thread) : IsAt caller .aside caller := by
  refine ⟨Nat.le_refl _, ?_⟩
  rw [Thread.progress, Nat.sub_self, List.take_zero]
  rfl

theorem IsAt.ne_tracing (hthread : IsAt caller progress thread) (hne : progress ≠ .tracing) :
    caller.progress thread ≠ .tracing := by
  rw [hthread.progress]
  exact hne

/-- Lock levels do not tell how far a collection has come. -/
theorem IsAt.hold (hthread : IsAt caller progress thread) (held : Held) :
    IsAt caller progress { thread with held } :=
  ⟨hthread.since, hthread.progress⟩

theorem IsAt.report (hthread : IsAt caller progress thread) (record : Record) :
    IsAt caller (progress.after record) (thread.report record) := by
  refine ⟨Nat.le_succ_of_le hthread.since, ?_⟩
  have hlength : (thread.report record).trace.length - caller.trace.length =
      thread.trace.length - caller.trace.length + 1 := Nat.succ_sub hthread.since
  rw [Thread.progress, hlength]
  exact congrArg (Progress.after · record) hthread.progress

end Thread

/-- Arrays that were moved out after the objects are among the marks of both. -/
theorem Marks.contains_arrays_insert {objects : OffsetSet} {marks : Marks} {ref : Ref}
    (hmarked : (⟨objects, marks.arrays⟩ : Marks).contains ref = true) (other : Ref) :
    (⟨objects, (marks.insert other).2.arrays⟩ : Marks).contains ref = true := by
  cases other with
  | object _ => exact hmarked
  | array offset =>
    exact Marks.contains_insert_of_contains hmarked (.array offset)

namespace World

variable {world : World} {entries : List Ref} {ref : Ref}

/-- The roots of a collection during which others mark some entries, and these entries. -/
def scope (world : World) (callStacks : List CallStack) (entries : List Ref) : List Slot :=
  world.roots callStacks ++ entries.map some

theorem reaches_scope (callStacks : List CallStack) (hmem : ref ∈ entries) :
    world.heap.Reaches (world.scope callStacks entries) ref :=
  .root (List.mem_append_right _ (List.mem_map.2 ⟨ref, hmem, rfl⟩))

end World

namespace Machine

open Call

/-- What others may do to the marks, by how far a collection has come. While it traces they mark
what is listed. -/
inductive Meddles (listed : Ref → Prop) : Progress → Marks → Marks → Prop
  | aside {marks marks' : Marks} : Meddles listed .aside marks marks'
  | tracing {marks : Marks} {ref : Ref} (hlisted : listed ref) :
      Meddles listed .tracing marks (marks.insert ref).2

/-- What goes on around the thread of a collection: a step of a worker or of a bystander, or a
change of the marks. -/
def Disturbed (caller : Thread) (listed : Ref → Prop) (x y : Thread × Machine) : Prop :=
  y.1 = x.1 ∧ (Around False x.2 y.2 ∨ ∃ marks,
    Meddles listed (caller.progress x.1) x.2.env.marks marks ∧ y.2 = x.2.withMarks marks)

/-- What goes on around a collection that traces. -/
def Tampered (listed : Ref → Prop) (machine machine' : Machine) : Prop :=
  Around False machine machine' ∨
    ∃ ref, listed ref ∧ machine' = machine.withMarks (machine.env.marks.insert ref).2

variable {caller t : Thread} {listed : Ref → Prop} {x y : Thread × Machine} {before : World}
  {roots : List Slot} {callStacks : List CallStack} {P : Ledger Job World Tally → Prop}

/-- What is not about the marks is left alone. -/
theorem stable_disturbed (hP : Kept False P)
    (hmarks : ∀ l marks, P l → P { l with env := { l.env with marks } }) (t : Thread) :
    Stable (Disturbed caller listed) fun x => x.1 = t ∧ Shows P x.2 := by
  rintro x y ⟨rfl, hholds⟩ ⟨hthread, haround | ⟨marks, -, heq⟩⟩
  · exact ⟨hthread, stable_holds steady_true hP _ _ hholds haround⟩
  · rw [heq]
    exact ⟨hthread, hholds.calm, hholds.level, hmarks _ marks hholds.ledger⟩

/-- What is not about the marks but those of listed entries is left alone by whoever marks these. -/
theorem firm_tampered (hP : Kept False P)
    (hmark : ∀ l ref, listed ref → P l →
      P { l with env := { l.env with marks := (l.env.marks.insert ref).2 } }) :
    Firm (Tampered listed) False P where
  similar := hP.similar
  stable := by
    rintro L hL machine machine' hholds (haround | ⟨ref, hlisted, rfl⟩)
    · exact stable_holds hL hP machine machine' hholds haround
    · exact ⟨hholds.calm, False.elim, hmark _ ref hlisted hholds.ledger⟩

theorem Meddles.mono {listed' : Ref → Prop} {progress : Progress} {marks marks' : Marks}
    (hlisted : ∀ ref, listed ref → listed' ref) (hmeddles : Meddles listed progress marks marks') :
    Meddles listed' progress marks marks' := by
  cases hmeddles with
  | aside => exact .aside
  | tracing hmem => exact .tracing (hlisted _ hmem)

theorem Disturbed.mono {listed' : Ref → Prop} (hlisted : ∀ ref, listed ref → listed' ref)
    (hstep : Disturbed caller listed x y) : Disturbed caller listed' x y :=
  ⟨hstep.1, hstep.2.imp id fun ⟨marks, hmeddles, heq⟩ => ⟨marks, hmeddles.mono hlisted, heq⟩⟩

/-- While a collection clears the marks nobody else changes them. -/
theorem Disturbed.around (hclearing : t.IsAt .clearing x.1) (hstep : Disturbed t listed x y) :
    Beside (Around False) x y ∧ t.IsAt .clearing y.1 := by
  obtain ⟨hthread, haround | ⟨marks, hmeddles, -⟩⟩ := hstep
  · exact ⟨⟨hthread, haround⟩, hthread.symm ▸ hclearing⟩
  · rw [hclearing.progress] at hmeddles
    cases hmeddles

theorem Disturbed.tampered (htracing : t.IsAt .tracing x.1) (hstep : Disturbed t listed x y) :
    Beside (Tampered listed) x y ∧ t.IsAt .tracing y.1 := by
  obtain ⟨hthread, haround | ⟨marks, hmeddles, heq⟩⟩ := hstep
  · exact ⟨⟨hthread, .inl haround⟩, hthread.symm ▸ htracing⟩
  · rw [htracing.progress] at hmeddles
    cases hmeddles with
    | tracing hlisted => exact ⟨⟨hthread, .inr ⟨_, hlisted, heq⟩⟩, hthread.symm ▸ htracing⟩

/-- What is at rest stays so when listed entries are marked. -/
theorem firm_resting {H : Heap → Marks → Prop} (hbusy : before.cycle.busy = true)
    (hH : ∀ heap marks ref, listed ref → H heap marks → H heap (marks.insert ref).2) :
    Firm (Tampered listed) False (Resting .collector False before H) :=
  firm_tampered (kept_resting hbusy) fun _ ref hlisted hrest =>
    hrest.onMarks (fun marks => (marks.insert ref).2) fun heap marks => hH heap marks ref hlisted

/-- Others may mark what is listed among what they may have marked. -/
theorem Combed.insert {entries : List Ref} {cells : List Slot} {heap : Heap} {marks : Marks}
    {ref : Ref} (hcombed : Combed before roots cells entries heap marks) (hmem : ref ∈ entries)
    (hreach : before.heap.Reaches roots ref) :
    Combed before roots cells entries heap (marks.insert ref).2 where
  heap := hcombed.heap
  marked other hmarked := by
    obtain rfl | hmarked := Marks.contains_insert_iff.1 hmarked
    · exact hreach
    · exact hcombed.marked other hmarked
  covers := hcombed.covers.insert List.mem_cons_self hmem

/-- Whoever marks what is listed keeps a scan going. -/
theorem benign_tampered {entries : List Ref} (hbusy : before.cycle.busy = true)
    (hreaches : ∀ ref ∈ entries, before.heap.Reaches roots ref) :
    Benign (Tampered (· ∈ entries)) .collector False before roots entries where
  alive := False.elim
  closed := firm_tampered kept_closed fun _ _ _ hshut => hshut
  resting := by
    refine firm_resting hbusy fun heap marks ref hmem hcontents => ⟨hcontents.1, ?_⟩
    intro other hmarked
    obtain rfl | hmarked := Marks.contains_insert_iff.1 hmarked
    · exact hmem
    · exact hcontents.2 other hmarked
  scanning group handling rows :=
    firm_tampered (kept_scanning (World.guards_of_busy hbusy)) fun _ ref hmem hscan =>
      hscan.meddle hmem (hreaches ref hmem)
  reaches := hreaches

/-- The scan of a mark phase during which others mark listed entries. -/
theorem meets_comb (entries : List Ref) (hbusy : before.cycle.busy = true)
    (hrank : t.held.rank ≤ Level.cycle.rank) (callStacks : List CallStack) :
    Meets (Tampered (· ∈ entries)) False
      (Shows (Resting .collector False before fun heap marks => heap = before.heap ∧
        ∀ ref, marks.contains ref = true → ref ∈ entries)) t (comb callStacks)
      (fun result t' machine => t'.held = t.held ∧ ∃ answer, result = .ok answer ∧
        ∀ found, answer = .ok found → Shows (Resting .collector False before
          (Combed before (before.scope callStacks entries) (before.roots callStacks)
            entries)) machine) := by
  have henv : Benign (Tampered (· ∈ entries)) .collector False before
      (before.scope callStacks entries) entries :=
    benign_tampered hbusy fun _ => World.reaches_scope callStacks
  have hrest := henv.resting
  refine meets_bind_yields _ (meets_readStats steady_true hrest (Nat.le_trans hrank (by decide))
    fun _ hl => hl.contents.1) fun stats => meets_given fun _ => ?_
  refine meets_bind_yields _ (meets_emit (hrest.stable steady_true)) fun _ => ?_
  have hscan : CarriesIn (Tampered (· ∈ entries)) False [] _ (scan .collector callStacks) _ :=
    carries_scan_among henv callStacks fun _ => List.mem_append_left _
  refine Meets.mono (hscan _) (fun _ hholds => hholds.relevel) ?_
  rintro result t' machine ⟨answer, rfl, rfl, hholds⟩
  refine ⟨rfl, answer, rfl, fun found hfound => ?_⟩
  subst hfound
  exact ⟨hholds.calm, fun _ => trivial, hholds.ledger.1.2⟩

/-- To take stock moves out what the roots reach, whatever else is marked meanwhile. -/
theorem meets_takeStock (roots : List Slot) {found : RootScan} (hbusy : before.cycle.busy = true)
    (hrank : t.held.rank ≤ Level.cycle.rank) :
    Meets (Tampered fun _ => True) False
      (Shows (Resting .collector False before fun heap marks => heap = before.heap ∧
        ∀ ref, before.heap.Reaches roots ref → marks.contains ref = true)) t (takeStock found)
      (fun result _ machine => ∀ found, result = .ok found →
        (∀ ref, before.heap.Reaches roots ref → found.live.contains ref = true) ∧
        Shows (Resting .collector False before fun heap _ => heap = before.heap) machine) := by
  have hmarks : t.held.rank ≤ Level.marks.rank := Nat.le_trans hrank (by decide)
  -- What is marked may only grow meanwhile.
  have hgrows : ∀ {H : Marks → Prop}, (∀ marks ref, H marks → H (marks.insert ref).2) →
      Firm (Tampered fun _ => True) False
        (Resting .collector False before fun heap marks => heap = before.heap ∧ H marks) :=
    fun hH => firm_resting hbusy fun heap marks ref _ hcontents =>
      ⟨hcontents.1, hH marks ref hcontents.2⟩
  have hall : Firm (Tampered fun _ => True) False (Resting .collector False before
      fun heap marks => heap = before.heap ∧
        ∀ ref, before.heap.Reaches roots ref → marks.contains ref = true) :=
    hgrows fun marks ref hmarked other hreach =>
      Marks.contains_insert_of_contains (hmarked other hreach) ref
  have hcount : ∀ kind, Meets (Tampered fun _ => True) False (Shows _) t
      (onMarks .collector (Marks.countKind kind)) (Yields t fun _ => Shows _) := fun kind =>
    meets_onMarks steady_true hall (fun _ => hall) hmarks fun _ hl => hl
  refine meets_bind_yields _ (hcount .object) fun objects => ?_
  refine meets_bind_yields _ (hcount .array) fun arrays => ?_
  rw [onMarks_freeze]
  simp only [bind_assoc, pure_bind]
  -- The marks of objects are moved out first, and those of arrays only grow until they are.
  have hhalf : ∀ objects : OffsetSet, Firm (Tampered fun _ => True) False
      (Resting .collector False before fun heap marks => heap = before.heap ∧
        ∀ ref, before.heap.Reaches roots ref →
          (⟨objects, marks.arrays⟩ : Marks).contains ref = true) :=
    fun objects => hgrows fun marks ref hmarked other hreach =>
      Marks.contains_arrays_insert (hmarked other hreach) ref
  have hmoved : ∀ live : LiveSet, Firm (Tampered fun _ => True) False
      (Resting .collector False before fun heap _ => heap = before.heap ∧
        ∀ ref, before.heap.Reaches roots ref → live.contains ref = true) :=
    fun live => hgrows fun _ _ hmarked => hmarked
  refine meets_bind_yields _ (meets_onMarks steady_true hall hhalf hmarks ?_) fun objects => ?_
  · exact fun l hrest =>
      ⟨hrest.tasks, hrest.places, hrest.untouched.setSheet _, hrest.contents⟩
  refine meets_bind_yields _ (meets_onMarks steady_true (hhalf objects)
    (fun arrays => hmoved ⟨objects, arrays⟩) hmarks ?_) fun arrays => ?_
  · exact fun l hrest =>
      ⟨hrest.tasks, hrest.places, hrest.untouched.setSheet _, hrest.contents⟩
  refine meets_bind_yields _ (meets_emit ((hmoved ⟨objects, arrays⟩).stable steady_true))
    fun _ => ?_
  refine meets_pure fun machine hholds found hfound => ?_
  cases hfound
  exact ⟨hholds.ledger.contents.2, hholds.mono fun l hrest => hrest.mono fun _ _ hcontents =>
    hcontents.1⟩

/-- Whoever only marks, and stands where its tracer does. -/
def tracing : Discipline Tracer (Thread × Machine) where
  relies _ _ := True
  prompt _ := False
  barred _ := False
  moves _ tracer x tracer' y :=
    (y.2 = x.2 ∧ tracer' = tracer) ∨ ∃ marks,
      tracer.step x.1 x.2.env.heap x.2.env.marks = some (.ok (tracer', marks)) ∧
        y.2 = x.2.withMarks marks

/-- Whoever has marked and not failed has nothing left before it. -/
def Through (tracer : Tracer) (result : Except Fault Nat) : Prop :=
  ∀ marked, result = .ok marked → tracer.pending = [] ∧ tracer.worklist = []

theorem through_error (tracer : Tracer) (fault : Fault) : Through tracer (.error fault) := by
  intro marked hresult
  cases hresult

/-- What is known of a tracer by what one step answers. -/
def Stepped (tracer : Tracer) : Except Fault (Tracer ⊕ Nat) → Prop
  | .ok (.inl tracer') => tracer = tracer'
  | .ok (.inr _) => tracer.pending = [] ∧ tracer.worklist = []
  | .error _ => True

theorem keeps_stepTracer (tracer : Tracer) :
    Call.Keeps tracing Stepped (onWorld (World.stepTracer .collector tracer)) tracer := by
  refine ⟨False.elim, ?_⟩
  rintro choice ⟨t, machine⟩ b y - hact
  cases hact
  rcases hstep : tracer.step t machine.env.heap (machine.env.sheet .collector) with
    _ | fault | ⟨tracer', marks⟩
  · obtain ⟨hpending, hworklist, -⟩ := Tracer.toAgenda_of_step_eq_none hstep
    exact ⟨tracer, .inl ⟨rfl, rfl⟩, hpending, hworklist⟩
  · exact ⟨tracer, .inl ⟨rfl, rfl⟩, trivial⟩
  · exact ⟨tracer', .inr ⟨marks, hstep, rfl⟩, rfl⟩

/-- A tracer does nothing but what its steps do, however many of them it takes. -/
theorem keeps_traceWithin (budget : Nat) (tracer : Tracer) :
    Call.Keeps tracing Through (onWorld (World.traceWithin .collector budget tracer)) tracer := by
  induction budget generalizing tracer with
  | zero =>
    refine ⟨False.elim, ?_⟩
    rintro choice x b y - ⟨⟩
  | succ budget ih =>
    simp only [World.traceWithin, onWorld, Call.focus_bind]
    refine Call.keeps_bind (keeps_stepTracer tracer) ?_ fun _ _ _ => through_error _ _
    rintro tracer (tracer' | marked) hend
    · obtain rfl : tracer = tracer' := hend
      exact ih tracer
    · exact fun _ _ => hend

/-- A call that marks what some cells reach does so by a tracer that begins with them. -/
theorem keeps_trace (cells : List Slot) :
    Call.Keeps tracing Through (trace .collector cells) (.start cells) := by
  simp only [trace, World.trace, onWorld, Call.focus_bind]
  refine Call.keeps_bind (R := fun tracer _ => tracer = .start cells) ⟨False.elim, ?_⟩ ?_
    fun _ _ _ => through_error _ _
  · rintro choice ⟨t, machine⟩ b y - hact
    cases hact
    exact ⟨_, .inl ⟨rfl, rfl⟩, rfl⟩
  · rintro _ budget rfl
    exact keeps_traceWithin budget _

/-- A tracer that does not come while a collection clears disturbs it by no more than it lists. -/
theorem eq_or_exists_disturbed {waits : Prop} {tracer tracer' : Tracer}
    (hmoves : tracing.moves waits tracer x tracer' y) (hfree : caller.progress t ≠ .clearing) :
    y.2 = x.2 ∨ ∃ marked : List Ref, (caller.progress t ≠ .tracing → marked = []) ∧
      (∀ ref ∈ marked, ref ∈ tracer'.worklist) ∧
      Disturbed caller (· ∈ marked) (t, x.2) (t, y.2) := by
  obtain ⟨hsame, -⟩ | ⟨marks, hstep, heq⟩ := hmoves
  · exact .inl hsame
  obtain rfl | ⟨ref, hlisted, rfl⟩ := (Tracer.toAgenda_step hstep []).1.marks_eq
  · exact .inl heq
  right
  cases hprogress : caller.progress t with
  | clearing => exact absurd hprogress hfree
  | aside =>
    refine ⟨[], fun _ => rfl, List.forall_mem_nil _, rfl, .inr ⟨_, ?_, heq⟩⟩
    rw [hprogress]
    exact .aside
  | tracing =>
    refine ⟨[ref], nofun, ?_, rfl, .inr ⟨_, ?_, heq⟩⟩
    · intro other hmem
      rw [List.mem_singleton.1 hmem]
      exact hlisted
    · rw [hprogress]
      exact .tracing List.mem_cons_self

/-- Nobody around takes a mark away. -/
theorem Around.marks_mono {alone : Prop} {machine machine' : Machine}
    (haround : Around alone machine machine') (ref : Ref)
    (hmarked : machine.env.marks.contains ref = true) :
    machine'.env.marks.contains ref = true := by
  obtain ⟨choice, i, hstep⟩ | ⟨-, hstep⟩ := haround
  · obtain heq | ⟨_, _, _, hbody⟩ := Worksite.workerStep_env hstep
    · rw [heq]
      exact hmarked
    · exact Job.step_marks_mono hbody hmarked
  · rw [hstep.world.marks]
    exact hmarked

end Machine

end MarkSweep
