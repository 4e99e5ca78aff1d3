import MarkSweep.Proofs.Cycle.Quiet
import MarkSweep.Proofs.Leftovers
import MarkSweep.Proofs.Pool.Attending

namespace MarkSweep

open Pool (Diary minding roaming)

/-- What a scan went through, as the answer of a call on a pool. -/
def RootScan.tally (found : RootScan) : Tally := ⟨found.frames, found.staticSlots⟩

/-- A scan is known from what it counts. -/
theorem RootScan.eq_of_map_tally {answer answer' : Except Failure RootScan}
    (hsame : answer.map tally = answer'.map tally) : answer = answer' := by
  rcases answer with failure | ⟨frames, staticSlots⟩ <;>
    rcases answer' with failure' | ⟨frames', staticSlots'⟩ <;> cases hsame <;> rfl

namespace Machine

/-- A scan queues jobs as members of one group, the group that it has made. -/
theorem keeps_minding_scan (sheet : Sheet) (callStacks : List CallStack) :
    Call.Keeps minding (fun _ _ => True) (scan sheet callStacks) none := by
  refine Call.keeps_bind Pool.keeps_minding_newGroup ?_ fun _ _ _ => trivial
  rintro _ g ⟨_, rfl, heq⟩
  cases heq
  have hspawns : ∀ frames, Call.Keeps minding (fun g? _ => g? = some g) (spawnFrames sheet g frames)
      (some g) := by
    intro frames
    induction frames with
    | nil => rfl
    | cons frame frames ih =>
      have hrow := fun row =>
        Pool.keeps_minding_spawn (Pool.keeps_spawnMember (ε := World) (ρ := Tally) g
          (Job.markRow sheet frame row) 0)
      refine Call.keeps_bind (hrow .operands) ?_ fun _ _ h => h.1
      rintro _ (failure | _) ⟨rfl, -⟩
      · rfl
      refine Call.keeps_bind (hrow .locals) ?_ fun _ _ h => h.1
      rintro _ (failure | _) ⟨rfl, -⟩
      · rfl
      · exact ih
  refine Call.keeps_bind (hspawns callStacks.flatten) ?_ fun _ _ _ => trivial
  rintro _ (failure | _) rfl
  · refine Call.keeps_bind (Pool.keeps_minding (Pool.keeps_abandonGroup g) nofun) ?_
      fun _ _ _ => trivial
    exact fun _ _ _ => trivial
  · refine Call.keeps_bind (Pool.keeps_minding (Pool.keeps_submit _ 0) nofun) ?_
      fun _ _ _ => trivial
    intro _ id _
    refine Call.keeps_bind (Pool.keeps_minding (Pool.keeps_tryJoin id) nofun) ?_
      fun _ _ _ => trivial
    intro _ statics _
    refine Call.keeps_bind (Pool.keeps_minding (Pool.keeps_waitGroup g) nofun) ?_
      fun _ _ _ => trivial
    exact fun _ _ _ => trivial

/-- Where nobody else does anything, only the workers are around. -/
theorem around_true : Around True = Worksite.Toils Job.body := by
  funext machine machine'
  simp [Around, Worksite.Toils]

/-- What a scan that nobody disturbs answers and leaves. -/
structure Concluded (sheet : Sheet) (before : World) (callStacks : List CallStack)
    (answer : Except Failure RootScan) (l : Ledger Job World Tally) : Prop where
  scanned : Scanned sheet True before (before.roots callStacks) answer l
  frames : ∀ found, answer = .ok found → found.frames = callStacks.flatten.length

/-- A scan on a pool that is ready ends, whatever the workers do first. -/
theorem ends_scan {machine : Machine} {sheet : Sheet} (hready : machine.pool.Ready)
    (hcalm : machine.pool.Calm) (hclear : machine.env.sheet sheet = {})
    (callStacks : List CallStack) (f : Except Failure RootScan → Pool.Answer Tally)
    (caller : Thread) :
    Routine.Ends (Call.Beside (Worksite.Toils Job.body))
      (fun result x => ∃ answer, result = .ok (f answer) ∧ x.2.pool.shutDown = false ∧
        Concluded sheet machine.env callStacks answer x.2.ledger)
      (do return f (← scan sheet callStacks) : Call Machine (Pool.Answer Tally))
      (caller, machine) := by
  have hguards : machine.env.Guards sheet True := fun halone => absurd trivial halone
  have hcarries : Carries True (machine.pool.workers.map (·.stage.isOver)) _
      (do return f (← scan sheet callStacks)) fun reply l =>
        ∃ answer, reply = f answer ∧ Concluded sheet machine.env callStacks answer l :=
    carries_bind (carries_scan hguards callStacks) fun answer =>
      carries_pure fun _ hscanned => ⟨answer, rfl, hscanned.1, hscanned.2⟩
  have hrest : Resting sheet True machine.env
      (fun heap marks => heap = machine.env.heap ∧ marks = {}) machine.ledger :=
    ⟨hready.idle, hready.vacant, .refl sheet True machine.env, rfl, hclear⟩
  rw [← around_true]
  refine ((hcarries caller machine ⟨hcalm, fun _ => hready.alert, hrest⟩).mono ?_).ends
    wellFounded_beside
  rintro result after ⟨reply, rfl, -, hholds⟩
  obtain ⟨answer, rfl, hconcluded⟩ := hholds.ledger
  exact ⟨answer, rfl, (hholds.level trivial).opened, hconcluded⟩

section Scanned

variable {sheet : Sheet} {before : World} {roots : List Slot} {answer : Except Failure RootScan}
  {found : RootScan} {failure : Failure} {l : Ledger Job World Tally}

/-- A scan that nobody disturbs fails only because of an entry that is missing. -/
theorem Scanned.missing (hscanned : Scanned sheet True before roots (.error failure) l) :
    ∃ ref, before.heap.Reaches roots ref ∧ before.heap.contains ref = false ∧
      failure = .taskFaulted (Fault.missingEntry ref).payload.message := by
  obtain ⟨hexcused, -⟩ := hscanned
  cases failure with
  | taskFaulted message =>
    obtain ⟨ref, hreach, hmissing, rfl⟩ := hexcused
    exact ⟨ref, hreach, hmissing, rfl⟩
  | poolShutDown => exact absurd trivial hexcused.1
  | _ => exact hexcused.elim

/-- A scan that does not fail has marked what the roots reach, and found all of it there. -/
theorem Scanned.exact (hscanned : Scanned sheet True before roots (.ok found) l) :
    before.heap.Intact roots ∧
      ∀ ref, (l.env.sheet sheet).contains ref = true ↔ before.heap.Reaches roots ref := by
  obtain ⟨hheap, hintact, hmarks⟩ := hscanned.2.contents
  rw [hheap] at hintact hmarks
  exact ⟨hintact, hmarks⟩

/-- A scan fails exactly if the roots reach a missing entry. -/
theorem Scanned.ok_iff (hscanned : Scanned sheet True before roots answer l) :
    (∃ found, answer = .ok found) ↔ before.heap.Intact roots := by
  cases answer with
  | ok found => exact ⟨fun _ => hscanned.exact.1, fun _ => ⟨found, rfl⟩⟩
  | error failure =>
    obtain ⟨ref, hreach, hmissing, -⟩ := hscanned.missing
    constructor
    · rintro ⟨found, hok⟩
      cases hok
    · intro hintact
      rw [hintact ref hreach] at hmissing
      cases hmissing

end Scanned

end Machine

namespace Estate

variable {e e' e₀ : Estate Job World Tally} {crew : List (Attended Job World Tally)}
  {p i made : Nat} {c c₀ : Plant Job World Tally} {before : World} {sheet : Sheet}
  {callStacks : List CallStack} {g : GroupId} {id : HandleId} {diary : Diary Job Tally}
  {answer : Except Failure RootScan}

/-- A scan as a call on a pool, which says what it went through. -/
def surveying (sheet : Sheet) (callStacks : List CallStack) (caller : Thread) :
    Visit (Pool.Errand Job) Machine (Pool.Answer Tally) :=
  ⟨.series, caller, caller, do
    return .outcome ((← Machine.scan sheet callStacks).map RootScan.tally)⟩

/-- Where such a call may end. -/
def Replies (sheet : Sheet) (callStacks : List CallStack) (diary : Diary Job Tally)
    (reply : Except Fault (Pool.Answer Tally)) : Prop :=
  ∃ result, Machine.Surveys sheet callStacks diary result ∧
    reply = result.map fun answer => .outcome (answer.map RootScan.tally)

/-- Call `i` on pool `p` has queued a job for each row of these frames as a member of group `g`, and
then the one for the static fields, whose handle is `id`. Nothing else that has ended answers to
either. -/
structure Staged (e : Estate Job World Tally) (p i : Nat) (c : Plant Job World Tally)
    (sheet : Sheet) (frames : List FrameId) (g : GroupId) (id : HandleId) : Prop where
  plant : e.plants[p]? = some c
  accepted : c.acceptedFrom (.client i) =
    (Machine.frameJobs sheet frames).map (fun job => ⟨.group g, job, 0⟩) ++
      [⟨.handle id, .markStatics sheet, 0⟩]
  sole : ∀ ending ∈ e.ends, ending.task.audience = .group g ∨ ending.task.audience = .handle id →
    ending.plant = p ∧ c.accepted[ending.place]? = some (.client i, ending.task)

/-- What a scan reports, if anything, when the job for the static fields has ended like this and
jobs for frames have left these messages with their group, the earliest first. -/
def reported (outcome : Outcome Tally) (messages : List String) : Option String :=
  match outcome with
  | .fault payload => some payload.message
  | .value _ => messages.head?

/-- What the answer of a scan that began in the world `before` says, and what the scan leaves. -/
structure Surveyed (before : World) (sheet : Sheet) (callStacks : List CallStack) (p i : Nat)
    (e : Estate Job World Tally) (answer : Except Failure RootScan) : Prop where
  /-- It succeeds if and only if nothing is missing that the roots reach. -/
  ok_iff : (∃ found, answer = .ok found) ↔ before.heap.Intact (before.roots callStacks)
  /-- Then exactly what the roots reach is marked. -/
  exact : ∀ found, answer = .ok found → ∀ ref,
    (e.env.sheet sheet).contains ref = true ↔ before.heap.Reaches (before.roots callStacks) ref
  frames : ∀ found, answer = .ok found → found.frames = (callStacks.map List.length).sum
  statics : ∀ found, answer = .ok found → found.staticSlots =
    (before.methods.loadedClasses.map fun id => (before.methods.staticSlots id).length).sum
  /-- Otherwise it names an entry that is reached and missing. -/
  missing : ∀ failure, answer = .error failure → ∃ ref,
    before.heap.Reaches (before.roots callStacks) ref ∧ before.heap.contains ref = false ∧
      failure = .taskFaulted (Fault.missingEntry ref).payload.message
  /-- It passes on the message of the job for the static fields, if that has faulted, and otherwise
  the first one of a job for a frame. -/
  first : ∃ c g id outcome, e.Staged p i c sheet callStacks.flatten g id ∧ e.Ran id outcome ∧
    ∀ message, answer = .error (.taskFaulted message) ↔
      reported outcome (e.faults g) = some message

/-- A scan that has heard of all its jobs reports the failure of the static job before any other. -/
theorem reported_iff {found : Tally → RootScan} {outcome : Outcome Tally} {messages : List String}
    {message : String} :
    (do
      let tally ← Pool.tried (some outcome)
      verdict messages
      return found tally : Except Failure RootScan) = .error (.taskFaulted message) ↔
      reported outcome messages = some message := by
  cases outcome with
  | fault payload => simp [Pool.tried, reported, bind, Except.bind]
  | value tally =>
    cases messages <;> simp [Pool.tried, reported, verdict, bind, Except.bind, pure, Except.pure]

/-- A scan that has waited for all its jobs has heard of no others. -/
theorem Roams.staged {Q : Diary Job Tally → Except Fault (Pool.Answer Tally) → Prop}
    {frames : List FrameId} {outcome? : Option (Outcome Tally)} {told : Except Failure Unit}
    (h : Roams made Q e crew p i
      ((.waitGroup g, .told told) :: (.tryJoin id, .heard outcome?) ::
        (.submit (.markStatics sheet) 0, .accepted (some id)) ::
          (Machine.spawned g (Machine.frameJobs sheet frames) ++ [(.newGroup, .grouped g)])))
    (hsole : e.Sole made p i) (hplant : e.plants[p]? = some c) :
    e.Staged p i c sheet frames g id := by
  obtain ⟨x, rfl, hkeeps⟩ := h.exists_keeps hplant
  have haccepted : x.plant.acceptedFrom (.client i) =
      (Machine.frameJobs sheet frames).map (fun job => ⟨.group g, job, 0⟩) ++
        [⟨.handle id, .markStatics sheet, 0⟩] := by
    rw [hkeeps.tasks]
    simp [Diary.tasks, Machine.tasks_spawned, Pool.Errand.queued]
  have hfresh : made ≤ g := h.learned.fresh g (by simp)
  have hstatic : ⟨.handle id, .markStatics sheet, 0⟩ ∈ x.plant.acceptedFrom (.client i) := by
    rw [haccepted]
    exact List.mem_append_right _ (List.mem_singleton_self _)
  refine ⟨hplant, haccepted, fun ending hending haudience => ?_⟩
  obtain hgroup | hhandle := haudience
  · exact h.upheld.entry_of_group hsole hfresh hplant hending hgroup
  · exact h.upheld.entry_of_handle h.homed hplant hstatic rfl hending hhandle

/-- What a scan answers that nobody disturbs, if its diary tells the truth. -/
theorem Roams.surveyed (h : Roams made (Replies sheet callStacks) e crew p i diary)
    (hsole : e.Sole made p i) (hplant : e.plants[p]? = some c)
    (hreplies : Replies sheet callStacks diary (.ok (.outcome (answer.map RootScan.tally))))
    (hopen : c.site.pool.shutDown = false)
    (hconcluded : Machine.Concluded sheet before callStacks answer (e.view c).site.ledger) :
    Surveyed before sheet callStacks p i e answer := by
  obtain ⟨hscanned, hframes⟩ := hconcluded
  -- So none of its jobs was refused or dropped.
  have hnot : answer ≠ .error .poolShutDown := by
    rintro rfl
    obtain ⟨ref, -, -, heq⟩ := hscanned.missing
    cases heq
  constructor
  case ok_iff => exact hscanned.ok_iff
  case exact =>
    rintro found rfl
    exact hscanned.exact.2
  case frames =>
    intro found hok
    rw [hframes found hok, List.length_flatten]
  case statics =>
    rintro found rfl
    rw [hscanned.1]
    simp [World.rowSlots, World.staticRows, List.length_flatMap, Function.comp_def, World.rootSlots]
  case missing =>
    rintro failure rfl
    exact hscanned.missing
  case first =>
    obtain ⟨result, hsurveys, hreply⟩ := hreplies
    cases hsurveys with
    | leaves hjobs =>
      have hanswer := RootScan.eq_of_map_tally (Pool.Answer.outcome.inj (Except.ok.inj hreply))
      exact absurd hanswer hnot
    | @joins g id k outcome? told hk =>
      have hanswer := RootScan.eq_of_map_tally (Pool.Answer.outcome.inj (Except.ok.inj hreply))
      obtain ⟨x, rfl, hkeeps⟩ := h.exists_keeps hplant
      obtain rfl | rfl := hk
      case inr =>
        -- A task is lost only where the pool was found shut down.
        have hshut := hkeeps.shut (.submit (.markStatics sheet) 0, .lost id) (by simp) trivial
        rw [hopen] at hshut
        cases hshut
      cases outcome? with
      | none => exact absurd hanswer hnot
      | some outcome =>
        obtain ⟨messages, hretired, rfl⟩ := h.learned.told g told (by simp)
        have hran : e.Ran id outcome :=
          h.learned.heard (.tryJoin id) (some outcome) (by simp) id (.inl rfl)
        refine ⟨x.plant, g, id, outcome, h.staged hsole hplant, hran, fun message => ?_⟩
        rw [hanswer, hretired.faults_eq]
        exact reported_iff

/-- Call `i` on pool `p` is a scan. What is in its diary is true, and the members of its group are
its own. -/
structure Pursues (made p i : Nat) (sheet : Sheet) (callStacks : List CallStack)
    (e : Estate Job World Tally) : Prop where
  roams : ∃ crew diary, Roams made (Replies sheet callStacks) e crew p i diary
  sole : e.Sole made p i

/-- A call that is about to scan has handed out nothing. -/
theorem Custody.pursues (h : Custody Job.body e crew) (hplant : e.plants[p]? = some c)
    (sheet : Sheet) (callStacks : List CallStack) (caller : Thread) :
    Pursues e.board.nextGroup p c.visits.length sheet callStacks
      (e.receive p (surveying sheet callStacks caller)) := by
  have hkeeps : (surveying sheet callStacks caller).rest.Keeps roaming
      (Replies sheet callStacks) [] :=
    Machine.keeps_scan_map sheet callStacks _
  obtain ⟨crew', hroams⟩ := h.receive hplant rfl hkeeps
  exact ⟨⟨crew', [], hroams⟩, (h.upheld.sole p c.visits.length).receive hplant _⟩

/-- It goes on with its rows whoever serves it. -/
theorem Pursues.serves {visit : Visit (Pool.Errand Job) Machine (Pool.Answer Tally)}
    {site : Machine} (h : Pursues made p i sheet callStacks e) (hengaged : Engaged e p i visit site)
    (hserves : Serves Job.body p i e e') : Pursues made p i sheet callStacks e' := by
  obtain ⟨crew, diary, hroams⟩ := h.roams
  exact ⟨hroams.step hserves.step, h.sole.serves Job.body_isPlain hengaged hserves⟩

/-- A scan that has just begun minds no group yet. -/
theorem engaged_surveying (hplant : e.plants[p]? = some c) (htame : c.site.pool.Tame)
    (sheet : Sheet) (callStacks : List CallStack) (caller : Thread) :
    Engaged (e.receive p (surveying sheet callStacks caller)) p c.visits.length
      (surveying sheet callStacks caller) (e.view c).site := by
  apply Engaged.receive hplant htame
  apply Call.keeps_bind (Machine.keeps_minding_scan sheet callStacks)
  · exact fun _ _ _ => trivial
  · exact fun _ _ _ => trivial

/-- In every course of events a scan on a pool that takes work and has none comes to an answer, as
long as nobody but the workers of the pool does anything: it has marked what the roots reach, or it
has failed for want of an entry. -/
theorem run_surveys {env : World} {caller : Thread}
    (hrun : Relation.ReflTransGen (Step Job.body) { env } e₀) (hplant : e₀.plants[p]? = some c₀)
    (hready : c₀.site.pool.Ready) (hclear : e₀.env.sheet sheet = {}) :
    Answers Job.body p c₀.visits.length
      (fun result e => ∃ answer, result = .ok (.outcome (answer.map RootScan.tally)) ∧
        Surveyed e₀.env sheet callStacks p c₀.visits.length e answer)
      (e₀.receive p (surveying sheet callStacks caller)) := by
  obtain ⟨crew₀, hcustody, htame⟩ := exists_custody_tame Job.body_isPlain hrun
  replace htame := htame c₀ (List.mem_of_getElem? hplant)
  have hkept := hcustody.upheld.released_eq_false hplant hready.opened
  have hcalm : (e₀.view c₀).site.pool.Calm := (hready.calm htame hkept).setBoard e₀.board
  have hends := Machine.ends_scan (hready.setBoard e₀.board) hcalm hclear callStacks
    (fun answer => .outcome (answer.map RootScan.tally)) caller
  have hpursues := hcustody.pursues hplant sheet callStacks caller
  have hengaged := engaged_surveying hplant htame sheet callStacks caller
  apply (answers_of_ends Job.body_isPlain hends Pursues.serves hpursues rfl rfl hengaged).mono
  rintro result e ⟨h, thread, site, visit, ⟨answer, rfl, hopen, hconcluded⟩, hanswer, hengaged⟩
  obtain ⟨c, hplant, hget, rfl⟩ := hengaged.place
  obtain ⟨crew, diary, hroams⟩ := h.roams
  have hreplies := hroams.ends (visit?_eq_some_iff.2 ⟨c, hplant, hget⟩) hanswer
  exact ⟨answer, rfl, hroams.surveyed h.sole hplant hreplies hopen hconcluded⟩

/-- Two stacks share a frame. What its locals refer to is not there, and a static field refers to
it, too. -/
def sharing : World where
  heap := ({} : Heap).putObject 1 ⟨#[none]⟩
  frames := #[⟨#[some (.object 1)], #[some (.object 9)], none⟩, ⟨#[none], #[], some 0⟩]
  methods :=
    { classes :=
        #[{ name := "A", statics := (∅ : Std.ExtTreeMap Nat Slot).insert 0 (some (.object 9)) }]
      loaded := (∅ : Std.ExtTreeMap String Nat).insert "A" 0 }
  config := .withWorkers 2

/-- A pool is made and told to work. -/
def opening : List (Turn Job) :=
  [.found 2 "gc", .arrive 0 .signalWork, .call 0 0, .call 0 0]

/-- Two call stacks share a frame, and two workers serve the scan: it comes to an answer, whatever
they do first. -/
theorem run_surveys_sharing :
    ∃ (e₀ : Estate Job World Tally) (c₀ : Plant Job World Tally),
      Relation.ReflTransGen (Step Job.body) { env := sharing } e₀ ∧ e₀.plants[0]? = some c₀ ∧
      c₀.site.pool.Ready ∧ e₀.env.sheet .collector = {} ∧
      Answers Job.body 0 c₀.visits.length
        (fun result e => ∃ answer, result = .ok (.outcome (answer.map RootScan.tally)) ∧
          Surveyed e₀.env .collector [[1, 0], [0]] 0 c₀.visits.length e answer)
        (e₀.receive 0 (surveying .collector [[1, 0], [0]] {})) := by
  have hreplay : ((replay Job.body { env := sharing } opening).bind fun e =>
      e.plants[0]?.map fun c => (e, c, e.env, c.site.pool.shutDown, c.site.pool.workEnabled,
        c.site.pool.workers.map (·.stage), c.site.pool.inFlight, c.site.pool.places)).map (·.2.2) =
      some (sharing, false, true, [.awake false, .awake false], [], []) := rfl
  obtain ⟨⟨e, c, facts⟩, hfound, hfacts⟩ := Option.map_eq_some_iff.1 hreplay
  obtain ⟨e', hrun, hfound⟩ := Option.bind_eq_some_iff.1 hfound
  obtain ⟨c', hplant, heq⟩ := Option.map_eq_some_iff.1 hfound
  cases heq
  obtain ⟨henv, hopened, henabled, hstages, hidle, hvacant⟩ : e.env = sharing ∧
      c.site.pool.shutDown = false ∧ c.site.pool.workEnabled = true ∧
      c.site.pool.workers.map (·.stage) = _ ∧ c.site.pool.inFlight = [] ∧
      c.site.pool.places = [] := by
    simpa only [Prod.mk.injEq] using hfacts
  have hmanned : ∃ worker ∈ c.site.pool.workers, worker.stage.isOver = false := by
    have hmem : .awake false ∈ c.site.pool.workers.map (·.stage) := by
      rw [hstages]
      exact List.mem_cons_self
    obtain ⟨worker, hmem, hstage⟩ := List.mem_map.1 hmem
    exact ⟨worker, hmem, congrArg Stage.isOver hstage⟩
  have hready : c.site.pool.Ready := ⟨hopened, henabled, hmanned, hidle, hvacant⟩
  have hclear : e.env.sheet .collector = {} := by
    rw [henv]
    rfl
  have hrun := run_of_replay hrun
  exact ⟨e, c, hrun, hplant, hready, hclear, run_surveys hrun hplant hready hclear⟩

end Estate

end MarkSweep
