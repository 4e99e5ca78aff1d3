import MarkSweep.Cycle.Scan
import MarkSweep.Proofs.Pool.Diary
import MarkSweep.Proofs.Pool.Turns

namespace MarkSweep

open Pool (Diary roaming)

namespace Machine

/-- The jobs that a scan queues for frames, the first one first. -/
def frameJobs (sheet : Sheet) (frames : List FrameId) : List Job :=
  frames.flatMap fun frame => [.markRow sheet frame .operands, .markRow sheet frame .locals]

/-- What a call writes in its diary while it queues jobs as members of a group. -/
def spawned (g : GroupId) (jobs : List Job) : Diary Job Tally :=
  (jobs.map fun job => (.spawnMember g job 0, .accepted none)).reverse

theorem spawned_cons (g : GroupId) (job : Job) (jobs : List Job) (diary : Diary Job Tally) :
    spawned g (job :: jobs) ++ diary =
      spawned g jobs ++ (.spawnMember g job 0, .accepted none) :: diary := by
  simp [spawned]

/-- The diary of a scan that has handed out jobs lists them in their order. -/
theorem tasks_spawned (g : GroupId) (jobs : List Job) (diary : Diary Job Tally) :
    Diary.tasks (spawned g jobs ++ diary) =
      diary.tasks ++ jobs.map fun job => ⟨.group g, job, 0⟩ := by
  induction jobs generalizing diary with
  | nil => exact (List.append_nil _).symm
  | cons job jobs ih =>
    rw [spawned_cons, ih]
    exact List.append_assoc _ _ _

/-- A scan that hands out jobs has no place taken in between. -/
theorem standing_spawned {g : GroupId} {jobs : List Job} {diary : Diary Job Tally}
    (hnone : diary.standing.seat? = none) :
    (Diary.standing (spawned g jobs ++ diary)).seat? = none := by
  induction jobs generalizing diary with
  | nil => exact hnone
  | cons job jobs ih =>
    rw [spawned_cons]
    exact ih rfl

/-- Where a scan may be when it is done with the frames. -/
theorem keeps_spawnFrames (sheet : Sheet) (g : GroupId) (frames : List FrameId)
    {diary : Diary Job Tally} (hnone : diary.standing.seat? = none) :
    Call.Keeps roaming (fun diary' result =>
      diary' = spawned g (frameJobs sheet frames) ++ diary ∧ result = .ok (.ok ()) ∨
      ∃ jobs job left, frameJobs sheet frames = jobs ++ job :: left ∧
        diary' = (.spawnMember g job 0, .refused none) :: (spawned g jobs ++ diary) ∧
          result = .ok (.error .poolShutDown))
      (spawnFrames sheet g frames) diary := by
  induction frames generalizing diary with
  | nil => exact .inl ⟨rfl, rfl⟩
  | cons frame frames ih =>
    refine Pool.keeps_bind_errand (Pool.keeps_spawnMember g _ 0) hnone ?_ nofun nofun
    rintro _ _ (_ | _)
    case spawnRefused => exact .inr ⟨[], _, _ :: frameJobs sheet frames, rfl, rfl, rfl⟩
    refine Pool.keeps_bind_errand (Pool.keeps_spawnMember g _ 0) rfl ?_ nofun nofun
    rintro _ _ (_ | _)
    case spawnRefused => exact .inr ⟨[_], _, frameJobs sheet frames, rfl, rfl, rfl⟩
    refine (ih rfl).mono ?_
    rintro _ _ (⟨rfl, rfl⟩ | ⟨jobs, job, left, hjobs, rfl, rfl⟩)
    · refine .inl ⟨?_, rfl⟩
      rw [← spawned_cons, ← spawned_cons]
      rfl
    · refine .inr ⟨.markRow sheet frame .operands :: .markRow sheet frame .locals :: jobs, job,
        left, ?_, ?_, rfl⟩
      · exact congrArg (fun jobs => _ :: _ :: jobs) hjobs
      · rw [spawned_cons, spawned_cons]

/-- Where a scan may end, and with what. -/
inductive Surveys (sheet : Sheet) (callStacks : List CallStack) :
    Diary Job Tally → Except Fault (Except Failure RootScan) → Prop
  /-- The pool has refused a frame's job. -/
  | leaves {g : GroupId} {jobs : List Job} {job : Job} {left : List Job}
      (hjobs : frameJobs sheet callStacks.flatten = jobs ++ job :: left) :
      Surveys sheet callStacks
        ((.abandonGroup g, .finished) :: (.spawnMember g job 0, .refused none) ::
          (spawned g jobs ++ [(.newGroup, .grouped g)]))
        (.ok (.error .poolShutDown))
  /-- The scan has waited for the static job and for those of the frames. -/
  | joins {g : GroupId} {id : HandleId} {k : Pool.Standing Tally}
      {outcome? : Option (Outcome Tally)} {answer : Except Failure Unit}
      (hk : k = .accepted (some id) ∨ k = .lost id) :
      Surveys sheet callStacks
        ((.waitGroup g, .told answer) :: (.tryJoin id, .heard outcome?) ::
          (.submit (.markStatics sheet) 0, k) ::
            (spawned g (frameJobs sheet callStacks.flatten) ++ [(.newGroup, .grouped g)]))
        (.ok do
          let tally ← Pool.tried outcome?
          answer
          return ⟨callStacks.flatten.length, tally.entries⟩)

/-- A scan goes on the errands that its answer tells of. -/
theorem keeps_scan (sheet : Sheet) (callStacks : List CallStack) :
    Call.Keeps roaming (Surveys sheet callStacks) (scan sheet callStacks) [] := by
  refine Pool.keeps_bind_errand Pool.keeps_newGroup rfl ?_ nofun nofun
  rintro _ g (_ | _)
  refine Call.keeps_bind (keeps_spawnFrames sheet g callStacks.flatten rfl) ?_ ?_
  case refine_2 =>
    rintro _ _ (⟨-, heq⟩ | ⟨_, _, _, -, -, heq⟩) <;> cases heq
  rintro _ _ (⟨rfl, heq⟩ | ⟨jobs, job, left, hjobs, rfl, heq⟩) <;> cases heq
  · have hidle : (Diary.standing (spawned g (frameJobs sheet callStacks.flatten) ++
        [(.newGroup, .grouped g)])).seat? = none := standing_spawned rfl
    have hsubmit := Pool.keeps_submit (ε := World) (ρ := Tally) (Job.markStatics sheet) 0
    refine Pool.keeps_bind_errand hsubmit hidle ?_ nofun nofun
    intro k id hsubmitted
    have hk : k = .accepted (some id) ∨ k = .lost id := by
      cases hsubmitted with
      | submitted => exact .inl rfl
      | lost => exact .inr rfl
    have hquiet : k.seat? = none := by obtain rfl | rfl := hk <;> rfl
    have htry := Pool.keeps_tryJoin (β := Job) (ε := World) (ρ := Tally) id
    refine Pool.keeps_bind_errand htry hquiet ?_ nofun nofun
    intro k' statics htried
    obtain ⟨outcome?, rfl, rfl⟩ :
        ∃ outcome?, k' = .heard outcome? ∧ statics = Pool.tried outcome? := by
      cases htried with
      | triedValue => exact ⟨_, rfl, rfl⟩
      | triedFault => exact ⟨_, rfl, rfl⟩
      | triedLost => exact ⟨_, rfl, rfl⟩
    have hwait := Pool.keeps_waitGroup (β := Job) (ε := World) (ρ := Tally) g
    refine Pool.keeps_bind_errand hwait rfl ?_ nofun nofun
    rintro _ answer (_ | _)
    exact .joins hk
  · refine Pool.keeps_bind_errand (Pool.keeps_abandonGroup g) rfl ?_ nofun nofun
    rintro _ _ (_ | _)
    exact .leaves hjobs

/-- A scan may answer in other words. -/
theorem keeps_scan_map (sheet : Sheet) (callStacks : List CallStack)
    (f : Except Failure RootScan → Pool.Answer Tally) :
    Call.Keeps roaming (fun diary answer => ∃ result, Surveys sheet callStacks diary result ∧
      answer = result.map f) (do return f (← scan sheet callStacks)) [] := by
  refine Call.keeps_bind (keeps_scan sheet callStacks) ?_ ?_
  · exact fun diary scan hsurveys => ⟨_, hsurveys, rfl⟩
  · exact fun diary fault hsurveys => ⟨_, hsurveys, rfl⟩

end Machine

namespace Estate

variable {B : Body Job World Tally} {e e₀ : Estate Job World Tally}
  {crew : List (Attended Job World Tally)} {p : Nat} {c c₀ : Plant Job World Tally}

/-- A scan as a call on a pool, which says whether it has failed. -/
def scanning (sheet : Sheet) (callStacks : List CallStack) (caller : Thread) :
    Visit (Pool.Errand Job) Machine (Pool.Answer Tally) :=
  ⟨.series, caller, caller, do
    return .verdict ((← Machine.scan sheet callStacks).map fun _ => ())⟩

/-- What a scan that has returned leaves of the jobs that it was to queue for frames. -/
inductive Leaves (e : Estate Job World Tally) (p : Nat) (c : Plant Job World Tally)
    (origin : Origin) (jobs : List Job) : Except Fault (Pool.Answer Tally) → Prop
  /-- All of them were accepted, and whatever was accepted has ended, unless it was dropped with the
  queue; in any case no worker is at it. -/
  | nothing {result : Except Fault (Pool.Answer Tally)}
      (hjobs : jobs <+: (c.acceptedFrom origin).map (·.body))
      (hsettled : ∀ (k : Nat) task, c.accepted[k]? = some (origin, task) →
        (e.Ended p k task ∨ e.Forfeited p k) ∧ ∀ j, c.post j ≠ some k) :
      Leaves e p c origin jobs result
  /-- One of them was refused, and the scan has returned without waiting for those before it. -/
  | earlier {job : Job} {left : List Job}
      (hjobs : jobs = (c.acceptedFrom origin).map (·.body) ++ job :: left) :
      Leaves e p c origin jobs (.ok (.verdict (.error .poolShutDown)))

/-- Where a scan may end as a call on a pool. -/
def Surveys (sheet : Sheet) (callStacks : List CallStack) (diary : Diary Job Tally)
    (answer : Except Fault (Pool.Answer Tally)) : Prop :=
  ∃ result, Machine.Surveys sheet callStacks diary result ∧
    answer = result.map fun scan => .verdict (scan.map fun _ => ())

/-- A call that scans keeps this discipline. -/
theorem keeps_scanning (sheet : Sheet) (callStacks : List CallStack) (caller : Thread) :
    (scanning sheet callStacks caller).rest.Keeps roaming (Surveys sheet callStacks) [] :=
  Machine.keeps_scan_map sheet callStacks _

/-- What a scan leaves is what its diary says. -/
theorem Roams.leaves {made i : Nat} {diary : Diary Job Tally} {sheet : Sheet}
    {callStacks : List CallStack} {result : Except Fault (Except Failure RootScan)}
    {x : Attended Job World Tally} {Q : Diary Job Tally → Except Fault (Pool.Answer Tally) → Prop}
    (h : Roams made Q e crew p i diary) (hx : crew[p]? = some x) (hkeeps : x.Keeps Q i diary)
    (hsurveys : Machine.Surveys sheet callStacks diary result) :
    Leaves e p x.plant (.client i) (Machine.frameJobs sheet callStacks.flatten)
      (result.map fun scan => .verdict (scan.map fun _ => ())) := by
  have htasks := hkeeps.tasks
  have hlearned := h.learned
  cases hsurveys with
  | @leaves g jobs job left hjobs =>
    have hbodies : (x.plant.acceptedFrom (.client i)).map (·.body) = jobs := by
      rw [htasks]
      simp [Diary.tasks, Machine.tasks_spawned, Pool.Errand.queued, Function.comp_def]
    rw [← hbodies] at hjobs
    exact .earlier hjobs
  | @joins g id k outcome? answer hk =>
    have hfate := hlearned.heard (.tryJoin id) outcome? (by simp) id (.inl rfl)
    obtain ⟨faults, hretired, -⟩ := hlearned.told g answer (by simp)
    have hidle := pending_eq_zero_iff.1 hretired.idle
    have hplant := h.upheld.getElem?_plants hx
    have hissued : x.plant.acceptedFrom (.client i) =
        (Machine.frameJobs sheet callStacks.flatten).map (fun job => ⟨.group g, job, 0⟩) ++
          (Pool.Errand.submit (.markStatics sheet) 0).queued k := by
      rw [htasks]
      simp [Diary.tasks, Machine.tasks_spawned, Pool.Errand.queued]
    have hstatics : ∀ task ∈ (Pool.Errand.submit (Job.markStatics sheet) 0).queued k,
        task.audience = .handle id := by
      obtain rfl | rfl := hk
      · exact fun task hmem => congrArg (·.audience) (List.mem_singleton.1 hmem)
      · exact fun task hmem => absurd hmem List.not_mem_nil
    refine .nothing ?_ fun l task hentry => ?_
    · rw [hissued, List.map_append, List.map_map]
      exact ⟨_, congrArg (· ++ _) (List.map_id' _).symm⟩
    · have hmem : task ∈ x.plant.acceptedFrom (.client i) :=
        List.mem_map.2 ⟨(.client i, task), List.mem_filter.2 ⟨List.mem_of_getElem? hentry,
          decide_eq_true rfl⟩, rfl⟩
      have hsettled : e.Ended p l task ∨ e.Forfeited p l := by
        rw [hissued] at hmem
        obtain hframe | hstatic := List.mem_append.1 hmem
        · obtain ⟨job, -, rfl⟩ := List.mem_map.1 hframe
          exact h.upheld.settled_of_idle hidle hplant hentry rfl
        · exact hfate.settled h.upheld h.homed hplant hentry (hstatics task hstatic)
      exact ⟨hsettled, h.upheld.post_ne_of_settled hplant hsettled⟩

/-- In every course of events a scan that has returned has waited for its jobs, unless a job for a
frame was refused. -/
theorem run_gathers {env : World} {sheet : Sheet} {callStacks : List CallStack} {caller : Thread}
    (hrun₀ : Relation.ReflTransGen (Step B) { env } e₀) (hplant : e₀.plants[p]? = some c₀)
    (hrun : Relation.ReflTransGen (Step B) (e₀.receive p (scanning sheet callStacks caller)) e)
    {visit : Visit (Pool.Errand Job) Machine (Pool.Answer Tally)}
    (hget : e.visit? p c₀.visits.length = some visit)
    {result : Except Fault (Pool.Answer Tally)} (hanswer : visit.answer? = some result) :
    ∃ c, e.plants[p]? = some c ∧ Leaves e p c (.client c₀.visits.length)
      (Machine.frameJobs sheet callStacks.flatten) result := by
  obtain ⟨crew₀, hcustody, -⟩ :=
    run_induction (P := fun _ => True) (fun _ _ _ _ _ => trivial) trivial hrun₀
  obtain ⟨crew₁, hstarted⟩ := hcustody.receive hplant rfl (keeps_scanning sheet callStacks caller)
  obtain ⟨crew, diary, hroams⟩ := hstarted.run hrun
  obtain ⟨outcome, hsurveys, rfl⟩ := hroams.ends hget hanswer
  obtain ⟨x, hx, hown⟩ := hroams.own
  exact ⟨x.plant, hroams.upheld.getElem?_plants hx, hroams.leaves hx hown hsurveys⟩

/-- A world with a frame whose only cell refers to an object. -/
def framed : World where
  heap := ({} : Heap).putObject 3 ⟨#[]⟩
  frames := #[⟨#[some (.object 3)], #[], none⟩]
  config := .withWorkers 1

/-- A pool with one worker in such a world. -/
def staffed : Estate Job World Tally where
  env := framed
  plants := [{ site := ⟨Pool.create 1 "gc-worker", framed⟩ }]

theorem run_staffed : Relation.ReflTransGen (Step Job.body) { env := framed } staffed := by
  have hpool : Pool.create? 1 "gc-worker" = .ok (Pool.create 1 "gc-worker" : Pool Job Tally) := rfl
  exact .single (.found hpool)

/-- A scan queues its jobs; then the pool is closed, and the scan waits for them. -/
def gathering : List (Turn Job) :=
  List.flatten
    [.replicate 5 (.call 0 0), [.arrive 0 .finalize], .replicate 2 (.call 0 1),
      .replicate 14 (.work 0 0), .replicate 2 (.call 0 0)]

/-- The pool is closed after a scan has queued its first job. -/
def interrupting : List (Turn Job) :=
  List.flatten
    [.replicate 2 (.call 0 0), [.arrive 0 .finalize, .call 0 1], .replicate 2 (.call 0 0)]

/-- The pool is closed when a scan has queued its jobs: the scan waits for all of them, and its
answer is good. -/
theorem run_gathers_finalized :
    ∃ (e : Estate Job World Tally)
      (visit : Visit (Pool.Errand Job) Machine (Pool.Answer Tally))
      (c : Plant Job World Tally),
      Relation.ReflTransGen (Step Job.body) { env := framed } staffed ∧
      Relation.ReflTransGen (Step Job.body) (staffed.receive 0 (scanning .collector [[0]] {})) e ∧
      e.visit? 0 0 = some visit ∧ visit.answer? = some (.ok (.verdict (.ok ()))) ∧
      e.plants[0]? = some c ∧
      Leaves e 0 c (.client 0) (Machine.frameJobs .collector [0]) (.ok (.verdict (.ok ()))) := by
  have hreplay : ((staffed.receive 0 (scanning .collector [[0]] {})).replay Job.body gathering).map
      (fun e => decide ((e.visit? 0 0).bind (·.answer?) = some (.ok (.verdict (.ok ()))))) =
        some true := by decide +kernel
  obtain ⟨e, hrun, hanswered⟩ := exists_run_of_replay hreplay
  obtain ⟨visit, hget, hanswer⟩ := Option.bind_eq_some_iff.1 (of_decide_eq_true hanswered)
  have hplant₀ : staffed.plants[0]? = some { site := ⟨Pool.create 1 "gc-worker", framed⟩ } := rfl
  obtain ⟨c, hplant, hleaves⟩ := run_gathers run_staffed hplant₀ hrun hget hanswer
  exact ⟨e, visit, c, run_staffed, hrun, hget, hanswer, hplant, hleaves⟩

/-- A scan whose second job is refused returns while its first job is still queued, and the object
that the job finds is marked only afterwards. -/
theorem run_leaves_behind :
    ∃ (e e' : Estate Job World Tally)
      (visit : Visit (Pool.Errand Job) Machine (Pool.Answer Tally)),
      Relation.ReflTransGen (Step Job.body) { env := framed } staffed ∧
      Relation.ReflTransGen (Step Job.body) (staffed.receive 0 (scanning .collector [[0]] {})) e ∧
      e.visit? 0 0 = some visit ∧
      visit.answer? = some (.ok (.verdict (.error .poolShutDown))) ∧
      e.plants.map (fun c => c.accepted.map (·.1)) = [[.client 0]] ∧
      e.plants.map (·.site.pool.queued) = [1] ∧ e.env.marks.contains (.object 3) = false ∧
      Relation.ReflTransGen (Step Job.body) e e' ∧ e'.env.marks.contains (.object 3) = true := by
  have hreplay : ((staffed.receive 0 (scanning .collector [[0]] {})).replay Job.body
      interrupting).map (fun e => decide ((e.visit? 0 0).bind (·.answer?) =
          some (.ok (.verdict (.error .poolShutDown))) ∧
        e.plants.map (fun c => c.accepted.map (·.1)) = [[.client 0]] ∧
        e.plants.map (·.site.pool.queued) = [1] ∧ e.env.marks.contains (.object 3) = false ∧
        (e.replay Job.body (.replicate 3 (.work 0 0))).map
          (fun e' => e'.env.marks.contains (.object 3)) = some true)) = some true := by
    decide +kernel
  obtain ⟨e, hrun, hfacts⟩ := exists_run_of_replay hreplay
  obtain ⟨hanswered, haccepted, hqueued, hunmarked, hlater⟩ := of_decide_eq_true hfacts
  obtain ⟨visit, hget, hanswer⟩ := Option.bind_eq_some_iff.1 hanswered
  obtain ⟨e', hrun', hmarked⟩ := exists_run_of_replay hlater
  exact ⟨e, e', visit, run_staffed, hrun, hget, hanswer, haccepted, hqueued, hunmarked, hrun',
    hmarked⟩

end Estate

end MarkSweep
