import MarkSweep.Pool.Script
import MarkSweep.Proofs.Marking.Jobs
import MarkSweep.Proofs.Pool.Custody
import MarkSweep.Proofs.Pool.Promises
import MarkSweep.Proofs.Pool.Turns

namespace MarkSweep

variable {β ε ρ : Type}

namespace Plant

variable {B : Body β ε ρ} {fate : Nat → Outcome ρ} {c c' one two : Plant β ε ρ}
  {stands stands' : Nat → Pool.Standing ρ}

/-- Two plants have begun the same tasks and left the same in their queues, have as many workers
left, and their boards agree. -/
structure Concurs (c c' : Plant β ε ρ) : Prop where
  begun : c'.begun = c.begun
  queue : c'.site.pool.queue.toList = c.site.pool.queue.toList
  live : c'.live = c.live
  board : c.site.pool.board.Agrees c'.site.pool.board

/-- Workers that are left to themselves come to rest. -/
theorem exists_atRest (B : Body β ε ρ) [B.Sized] (c : Plant β ε ρ) :
    ∃ c', Relation.ReflTransGen (Labours B) c c' ∧ c'.AtRest B := by
  generalize hsite : c.site = site
  induction site using (Worksite.wellFounded_workerStep B).induction generalizing c with
  | h site ih =>
    subst hsite
    by_cases hrest : c.AtRest B
    · exact ⟨c, .refl, hrest⟩
    · simp only [AtRest, not_forall] at hrest
      obtain ⟨choice, i, hgoes⟩ := hrest
      obtain ⟨site, hstep⟩ := Option.ne_none_iff_exists'.1 hgoes
      obtain ⟨c', hrun, hrest⟩ := ih site ⟨choice, i, hstep⟩ _
        (record_eq (c.advance (.worker i) site) i (c.site.pool.stage i) (site.pool.stage i)).1
      exact ⟨c', .head (.work hstep) hrun, hrest⟩

/-- Two plants that the same was bound to become of have become the same. -/
theorem concurs_of_run (horderly : c.Orderly stands) (hwatchful : c.Watchful stands')
    (hquiet : Quiet stands') (honce : ∀ id, c.site.pool.seats.count (.handle id) ≤ 1)
    (hmodest : ∀ c', Relation.ReflTransGen (Labours B) c c' → c'.Modest B)
    (hforetold : ∀ c', Relation.ReflTransGen (Labours B) c c' → c'.Foretells B fate)
    (hone : Relation.ReflTransGen (Labours B) c one) (hrest : one.AtRest B)
    (htwo : Relation.ReflTransGen (Labours B) c two) (hrest' : two.AtRest B) :
    Concurs one two := by
  obtain ⟨hkeeps, horderly₁, hwatchful₁⟩ :=
    keeps_of_run horderly hwatchful hquiet hmodest hforetold hone
  obtain ⟨hkeeps', horderly₂, hwatchful₂⟩ :=
    keeps_of_run horderly hwatchful hquiet hmodest hforetold htwo
  obtain ⟨houtlook, hnews⟩ :=
    hrest.outlook (hmodest one hone) horderly₁ hwatchful₁ hquiet fate
  obtain ⟨houtlook', hnews'⟩ :=
    hrest'.outlook (hmodest two htwo) horderly₂ hwatchful₂ hquiet fate
  obtain ⟨log, hboard, hlog⟩ := hkeeps.posted
  obtain ⟨log', hboard', hlog'⟩ := hkeeps'.posted
  rw [hnews, add_zero] at hlog
  rw [hnews', add_zero] at hlog'
  have hsame := houtlook'.symm.trans (hkeeps'.outlook.trans (hkeeps.outlook.symm.trans houtlook))
  obtain ⟨hbegun, hqueue, hlive⟩ := Outlook.mk.inj hsame
  have htold : ∀ id : HandleId, log.countP (·.isTold id) ≤ 1 := by
    intro id
    have hle := (countP_news_le c fate id).trans (honce id)
    rw [hlog, Multiset.coe_countP] at hle
    simpa using hle
  have hagrees := Board.agrees_of_perm (Multiset.coe_eq_coe.1 (hlog.symm.trans hlog')) htold
    c.scene.board
  rw [← hboard, ← hboard'] at hagrees
  exact ⟨hbegun, hqueue, hlive, hagrees⟩

/-- The calls keep their discipline, and the workers are in balance with them. -/
def Watched (c : Plant β ε ρ) : Prop := ∃ stands, c.Disciplined stands ∧ c.Watchful stands

/-- Whatever happens next, the balance is kept. -/
theorem Watched.step (h : c.Watched) (hstep : Step B c c') : c'.Watched := by
  obtain ⟨stands, hkeeps, hwatchful⟩ := h
  obtain ⟨stands', hpasses, hkeeps'⟩ := hkeeps.step hstep
  exact ⟨stands', hkeeps', hwatchful.step hpasses⟩

/-- Calls that have all ended wake nobody any more. -/
theorem Watched.quiet (h : c.Watched) (hidle : ∀ visit ∈ c.visits, visit.answer? ≠ none) :
    ∃ stands, c.Watchful stands ∧ Quiet stands := by
  obtain ⟨stands, hkeeps, hwatchful⟩ := h
  refine ⟨stands, hwatchful, fun i => Pool.Standing.calm_of_not_isWaking fun hwaking => ?_⟩
  by_cases hlt : i < c.visits.length
  · have hget := List.getElem?_eq_getElem hlt
    have hended := Option.isSome_iff_ne_none.2 (hidle _ (List.getElem_mem hlt))
    exact Pool.not_wakes_of_answer? c.site hended
      (Pool.wakes_of_isWaking (hkeeps i _ hget) hwaking)
  · rw [hwatchful.absent i (Nat.not_lt.1 hlt)] at hwaking
    exact hwaking

end Plant

namespace Estate

variable {B : Body β ε ρ} {e e' : Estate β ε ρ} {c : Plant β ε ρ} {p : Nat}

/-- What holds of every plant but one, and of that one after a step, holds of every plant. -/
theorem watched_set (h : ∀ c ∈ e.plants, c.Watched) (hc : c.Watched) :
    ∀ c' ∈ e.plants.set p c, c'.Watched := by
  intro c' hmem
  obtain hmem | rfl := List.mem_or_eq_of_mem_set hmem
  · exact h c' hmem
  · exact hc

/-- On every pool of an estate the workers are in balance with the calls. -/
theorem watched_of_step (hstep : Step B e e') (h : ∀ c ∈ e.plants, c.Watched) :
    ∀ c ∈ e'.plants, c.Watched := by
  have hview : ∀ {p : Nat} {c : Plant β ε ρ}, e.plants[p]? = some c → (e.view c).Watched := by
    intro p c hplant
    obtain ⟨stands, hkeeps, hwatchful⟩ := h c (List.mem_of_getElem? hplant)
    exact ⟨stands, hkeeps, hwatchful.watch, hwatchful.absent⟩
  cases hstep with
  | found hpool =>
    intro c hmem
    obtain hmem | hmem := List.mem_append.1 hmem
    · exact h c hmem
    · rw [List.mem_singleton.1 hmem]
      exact ⟨_, Plant.disciplined_nil, .start hpool e.env⟩
  | arrive hplant errand caller =>
    exact watched_set h ((h _ (List.mem_of_getElem? hplant)).step (B := B) (.arrive errand caller))
  | call hplant hget hstep hhas =>
    exact watched_set h ((hview hplant).step (B := B) (.call hget hstep))
  | work hplant hstep hhas => exact watched_set h ((hview hplant).step (.work hstep))
  | rouse hplant i =>
    exact watched_set h ((h _ (List.mem_of_getElem? hplant)).step (B := B) (.rouse i))
  | others env => exact h

/-- In every course of events: once all calls on a pool have ended, its workers come to rest by
themselves. If its tasks neither wait nor ask anything of the pool, and each comes to the same
whoever runs it and whatever the others do, then it makes no difference in which way the workers
come to rest. -/
theorem run_concurs [B.Sized] {env : ε} (hrun : Relation.ReflTransGen (Step B) { env } e)
    (hplant : e.plants[p]? = some c) (hidle : ∀ visit ∈ c.visits, visit.answer? ≠ none)
    (hmodest : ∀ c', Relation.ReflTransGen (Plant.Labours B) (e.view c) c' → c'.Modest B)
    {fate : Nat → Outcome ρ}
    (hforetold : ∀ c', Relation.ReflTransGen (Plant.Labours B) (e.view c) c' →
      c'.Foretells B fate) :
    (∃ one, Relation.ReflTransGen (Plant.Labours B) (e.view c) one ∧ one.AtRest B) ∧
      ∀ one two, Relation.ReflTransGen (Plant.Labours B) (e.view c) one → one.AtRest B →
        Relation.ReflTransGen (Plant.Labours B) (e.view c) two → two.AtRest B →
          one.Concurs two := by
  refine ⟨Plant.exists_atRest B (e.view c), fun one two hone hrest htwo hrest' => ?_⟩
  obtain ⟨crew, hcustody, hwatched⟩ := run_induction
    (P := fun e : Estate β ε ρ => ∀ c ∈ e.plants, c.Watched)
    (fun _ _ _ hstep hwatched => watched_of_step hstep hwatched) nofun hrun
  obtain ⟨x, hx, rfl⟩ := hcustody.upheld.exists_attended hplant
  obtain ⟨stands, hwatchful, hquiet⟩ := (hwatched _ (List.mem_of_getElem? hplant)).quiet hidle
  have horderly := (hcustody.upheld.orderly x (List.mem_of_getElem? hx)).setBoard e.board e.env
  have honce : ∀ id, x.plant.site.pool.seats.count (.handle id) ≤ 1 := by
    intro id
    have hhandle := hcustody.upheld.sound.handle id
    have hle := le_sum_of_getElem? (fun x => x.plant.site.pool.seats.count (.handle id)) hx
    have honce := hhandle.once
    have hkept := hhandle.kept
    simp only [books] at honce hkept
    omega
  exact Plant.concurs_of_run horderly ⟨hwatchful.watch, hwatchful.absent⟩ hquiet honce hmodest
    hforetold hone hrest htwo hrest'

/-- What becomes of tasks that keep their promises is known from the beginning. -/
theorem foretold_of_promised {env : ε} (hrun : Relation.ReflTransGen (Step B) { env } e)
    (hplant : e.plants[p]? = some c) {promised : β → Outcome ρ → Prop} {fate : Nat → Outcome ρ}
    (hB : B.IsTrueTo promised) (hpromised : c.scene.Promised promised fate) {c' : Plant β ε ρ}
    (hlabours : Relation.ReflTransGen (Plant.Labours B) (e.view c) c') :
    c'.Modest B ∧ c'.Foretells B fate := by
  obtain ⟨crew, hcustody, -⟩ := run_induction (P := fun _ : Estate β ε ρ => True)
    (fun _ _ _ _ _ => trivial) trivial hrun
  obtain ⟨x, hx, rfl⟩ := hcustody.upheld.exists_attended hplant
  have horderly := (hcustody.upheld.orderly x (List.mem_of_getElem? hx)).setBoard e.board e.env
  have hview : (e.view x.plant).scene.Promised promised fate :=
    ⟨hpromised.running, hpromised.queued, hpromised.plain⟩
  exact Plant.foretold_of_promised hB hview horderly hlabours

end Estate

/-- A script that logs lines and has the same ending everywhere. -/
def Script.EndsIn (script : Script ρ) (outcome : Outcome ρ) : Prop :=
  (∀ action ∈ script.actions, ∃ line, action = .log line) ∧ ∀ worker, script.ending worker = outcome

/-- A script that waits for nothing ends as it says. -/
theorem Script.isTrueTo_endsIn [Inhabited ρ] : (Script.body (ρ := ρ)).IsTrueTo EndsIn := by
  intro name thread shop script outcome hends
  obtain ⟨actions, ending⟩ := script
  obtain ⟨hlogs, hending⟩ := hends
  cases actions with
  | nil => exact .inr ⟨shop, congrArg (Move.finish shop) (hending name)⟩
  | cons action actions =>
    obtain ⟨⟨line, rfl⟩, hrest⟩ := List.forall_mem_cons.1 hlogs
    exact .inl ⟨_, ⟨actions, ending⟩, rfl, hrest, hending⟩

namespace Estate

/-- For two workers: a task that will end one of them, a member of a group that will fault, and a
task that somebody may wait for. -/
def parting : List (Turn (Script String)) :=
  [.found 2 "pool", .arrive 0 .newGroup, .call 0 0,
    .arrive 0 (.execute ⟨[.log "parting"], fun _ => .fault .nonText⟩ 0), .call 0 1,
    .arrive 0 (.spawnMember 0 ⟨[], fun _ => .fault (.text "broken")⟩ 0), .call 0 2,
    .arrive 0 (.submit ⟨[.log "last"], fun _ => .value "done"⟩ 0), .call 0 3, .call 0 3,
    .arrive 0 .signalWork, .call 0 4, .call 0 4]

/-- Of two workers one is going to die: whichever takes which task, all that is left is the same. -/
theorem run_concurs_parting :
    ∃ (e : Estate (Script String) Workshop String) (c : Plant (Script String) Workshop String)
      (fate : Nat → Outcome String),
      Relation.ReflTransGen (Step Script.body) { env := {} } e ∧ e.plants[0]? = some c ∧
      (∀ visit ∈ c.visits, visit.answer? ≠ none) ∧
      (∀ c', Relation.ReflTransGen (Plant.Labours Script.body) (e.view c) c' →
        c'.Modest Script.body) ∧
      (∀ c', Relation.ReflTransGen (Plant.Labours Script.body) (e.view c) c' →
        c'.Foretells Script.body fate) ∧
      (∃ one, Relation.ReflTransGen (Plant.Labours Script.body) (e.view c) one ∧
        one.AtRest Script.body) ∧
      ∀ one two, Relation.ReflTransGen (Plant.Labours Script.body) (e.view c) one →
        one.AtRest Script.body → Relation.ReflTransGen (Plant.Labours Script.body) (e.view c) two →
          two.AtRest Script.body → one.Concurs two := by
  have hreplay : ((replay Script.body { env := {} } parting).bind fun e => e.plants[0]?.map fun c =>
      (e, c, c.scene.ahead, c.site.pool.workers.map (·.stage),
        c.visits.map (·.answer?.isSome))).map (·.2.2) =
      some ([(⟨.nobody, ⟨[.log "parting"], fun _ => .fault .nonText⟩, 0⟩, 0),
          (⟨.group 0, ⟨[], fun _ => .fault (.text "broken")⟩, 0⟩, 1),
          (⟨.handle 0, ⟨[.log "last"], fun _ => .value "done"⟩, 0⟩, 2)],
        [.awake false, .awake false], [true, true, true, true, true]) := rfl
  obtain ⟨⟨e, c, facts⟩, hfound, hfacts⟩ := Option.map_eq_some_iff.1 hreplay
  obtain ⟨e', hrun, hfound⟩ := Option.bind_eq_some_iff.1 hfound
  obtain ⟨c', hplant, heq⟩ := Option.map_eq_some_iff.1 hfound
  cases heq
  obtain ⟨hahead, hstages, hended⟩ : c.scene.ahead = _ ∧ c.site.pool.workers.map (·.stage) = _ ∧
      c.visits.map (·.answer?.isSome) = _ := by
    simpa only [Prod.mk.injEq] using hfacts
  have hrun := run_of_replay hrun
  have hidle : ∀ visit ∈ c.visits, visit.answer? ≠ none := by
    intro visit hmem
    have hmem := List.mem_map_of_mem (f := (·.answer?.isSome)) hmem
    rw [hended] at hmem
    exact Option.isSome_iff_ne_none.1 (by simpa using hmem)
  have hawake : ∀ i, c.site.pool.stage i = .awake false ∨ c.site.pool.stage i = .exited := by
    refine Pool.stage_of_workers (P := fun stage => stage = .awake false ∨ stage = .exited)
      (fun worker hmem => ?_) (.inr rfl)
    have hmem := List.mem_map_of_mem (f := (·.stage)) hmem
    rw [hstages] at hmem
    exact .inl (by simpa using hmem)
  have hpromised : c.scene.Promised Script.EndsIn fun
      | 0 => .fault .nonText
      | 1 => .fault (.text "broken")
      | _ => .value "done" := by
    refine ⟨fun i task k hplace => ?_, ?_, fun i => ?_⟩
    · obtain hstage | hstage := hawake i <;> cases hstage.symm.trans (congrArg Prod.fst hplace)
    · rw [hahead]
      simp [Script.EndsIn]
    · change (c.site.pool.stage i).isPlain = true
      obtain hstage | hstage := hawake i <;> rw [hstage] <;> rfl
  have hkept := fun c'
      (hlabours : Relation.ReflTransGen (Plant.Labours Script.body) (e.view c) c') =>
    foretold_of_promised hrun hplant Script.isTrueTo_endsIn hpromised hlabours
  have hmodest := fun c' hlabours => (hkept c' hlabours).1
  have hforetold := fun c' hlabours => (hkept c' hlabours).2
  exact ⟨e, c, _, hrun, hplant, hidle, hmodest, hforetold,
    run_concurs hrun hplant hidle hmodest hforetold⟩

/-- A frame has two objects on its operand stack that are not there, and one of them is in a static
field, too. -/
def bereft : World where
  frames := #[⟨#[some (.object 8), some (.object 7)], #[], none⟩]
  methods :=
    { classes :=
        #[{ name := "A", statics := (∅ : Std.ExtTreeMap Nat Slot).insert 0 (some (.object 8)) }]
      loaded := (∅ : Std.ExtTreeMap String Nat).insert "A" 0 }
  config := .withWorkers 2

/-- Two workers have taken two tasks: the one marks what the frame holds, and the other, whose
handle is handed out, what the static fields hold. -/
def racing : List (Turn Job) :=
  [.found 2 "gc", .arrive 0 .newGroup, .call 0 0,
    .arrive 0 (.spawnMember 0 (.markRow .collector 0 .operands) 0), .call 0 1,
    .arrive 0 (.submit (.markStatics .collector) 0), .call 0 2, .call 0 2,
    .arrive 0 .signalWork, .call 0 3, .call 0 3, .work 0 0, .work 0 1]

/-- Of two tasks that mark what refers to the same missing object, the one that comes first faults.
If the frame comes first, then the handle of the other task is told a result, and else of the
missing object. -/
theorem run_diverges :
    ∃ (e : Estate Job World Tally) (c one two : Plant Job World Tally),
      Relation.ReflTransGen (Step Job.body) { env := bereft } e ∧ e.plants[0]? = some c ∧
      (∀ visit ∈ c.visits, visit.answer? ≠ none) ∧
      (∀ c', Relation.ReflTransGen (Plant.Labours Job.body) (e.view c) c' → c'.Modest Job.body) ∧
      Relation.ReflTransGen (Plant.Labours Job.body) (e.view c) one ∧ one.AtRest Job.body ∧
      Relation.ReflTransGen (Plant.Labours Job.body) (e.view c) two ∧ two.AtRest Job.body ∧
      two.site.pool.board.handles[(0 : HandleId)]? ≠
        one.site.pool.board.handles[(0 : HandleId)]? := by
  have hreplay : ((replay Job.body { env := bereft } racing).bind fun e =>
      e.plants[0]?.bind fun c =>
        ((e.view c).toil Job.body (.replicate 5 1 ++ .replicate 6 0)).bind fun one =>
        ((e.view c).toil Job.body (.replicate 6 0 ++ .replicate 5 1)).map fun two =>
          decide ((∀ visit ∈ c.visits, visit.answer?.isSome = true) ∧
            (∀ worker ∈ c.site.pool.workers, worker.stage.isPlain = true) ∧
            (∀ worker ∈ one.site.pool.workers,
              worker.stage.isParked = true ∨ worker.stage.isOver = true) ∧
            (∀ worker ∈ two.site.pool.workers,
              worker.stage.isParked = true ∨ worker.stage.isOver = true) ∧
            one.site.pool.board.handles[(0 : HandleId)]?.bind (·.fate?.map (·.map (·.isFault))) =
              some (some true) ∧
            two.site.pool.board.handles[(0 : HandleId)]?.bind (·.fate?.map (·.map (·.isFault))) =
              some (some false))) = some true := by decide +kernel
  obtain ⟨e, hrun, hreplay⟩ := Option.bind_eq_some_iff.1 hreplay
  obtain ⟨c, hplant, hreplay⟩ := Option.bind_eq_some_iff.1 hreplay
  obtain ⟨one, hone, hreplay⟩ := Option.bind_eq_some_iff.1 hreplay
  obtain ⟨two, htwo, hfacts⟩ := Option.map_eq_some_iff.1 hreplay
  obtain ⟨hended, hplain, hrest, hrest', hfault, hvalue⟩ := of_decide_eq_true hfacts
  refine ⟨e, c, one, two, run_of_replay hrun, hplant, ?_, ?_, Plant.run_of_toil hone,
    Plant.atRest_of_workers hrest, Plant.run_of_toil htwo, Plant.atRest_of_workers hrest', ?_⟩
  · exact fun visit hmem => Option.isSome_iff_ne_none.1 (hended visit hmem)
  · exact fun c' hlabours => Plant.modest_of_plain Job.body_isPlain
      (Plant.plain_of_run (c := e.view c) Job.body_isPlain hplain hlabours)
  · intro hsame
    rw [hsame, hfault] at hvalue
    cases hvalue

end Estate

end MarkSweep
