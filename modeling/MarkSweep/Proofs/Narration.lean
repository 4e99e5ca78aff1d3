import MarkSweep.Proofs.Cycle.Telling
import MarkSweep.Proofs.Retention

namespace MarkSweep

/-- Whether a collection begins here. -/
def Record.opensCollection : Record → Bool
  | .opened (.collection _) => true
  | _ => false

/-- Whether this is a warning. -/
def Record.isWarning : Record → Bool
  | .event e => e.severity = .warn
  | _ => false

/-- Spans that lie within one another or side by side, with events among them. -/
inductive Nested : List Record → Prop
  | nil : Nested []
  | event {event : Event} {rest : List Record} (hrest : Nested rest) :
      Nested (.event event :: rest)
  | span {span : Span} {body rest : List Record} (hbody : Nested body) (hrest : Nested rest) :
      Nested (.opened span :: body ++ .left span :: rest)

/-- One nested report after another is nested. -/
theorem Nested.append {records rest : List Record} (hrecords : Nested records)
    (hrest : Nested rest) : Nested (records ++ rest) := by
  induction hrecords with
  | nil => exact hrest
  | event _ ih => exact ih.event
  | @span span body _ hbody _ _ ih =>
    rw [List.append_assoc]
    exact hbody.span ih

/-- Every span that is opened is left. -/
theorem Nested.count_opened {records : List Record} (hrecords : Nested records) (span : Span) :
    records.count (.opened span) = records.count (.left span) := by
  induction hrecords with
  | nil => rfl
  | event _ ih => simpa using ih
  | @span other body rest _ _ ihbody ihrest =>
    by_cases hsame : other = span
    · subst hsame
      simp [List.count_append, ihbody, ihrest]
      omega
    · simp [List.count_append, ihbody, ihrest, hsame]

theorem nested_events (events : List Event) : Nested (events.map .event) := by
  induction events with
  | nil => exact .nil
  | cons event events ih => exact ih.event

namespace Machine

open Call

variable {held : Held} {before : Machine} {callStacks : List CallStack} {policy : Policy}
  {closed : Prop} {world : World}

/-- What is reported of a phase is nested. -/
theorem nested_phaseRecords (phase : Phase) (values : Nat) (events : List Event) :
    Nested (phaseRecords phase values events) :=
  .span (nested_events events).event .nil

/-- What is recounted of a collection is nested, however far it came. -/
theorem Recounts.nested {rested : Prop} {result : Except Fault Metrics} {records : List Record}
    (hrecounts : Recounts rested world callStacks result records) : Nested records := by
  cases hrecounts with
  | completed _ => exact (nested_phaseRecords _ _ _).append (nested_phaseRecords _ _ _)
  | unmarked _ => exact nested_phaseRecords _ _ _
  | unswept _ => exact (nested_phaseRecords _ _ _).append (nested_phaseRecords _ _ _)

/-- What a call narrates is nested on every exit. -/
theorem Narrates.nested {result : Except Fault (Option Metrics)} {records : List Record}
    (hnarrates : Narrates held before callStacks policy closed result records) :
    Nested records := by
  cases hnarrates with
  | refused _ => exact .nil
  | unasked _ => exact .nil
  | late _ _ => exact .event .nil
  | begun _ _ _ hrecounts => exact .span hrecounts.nested .nil

/-- A call that has offered to collect, with its thread and the machine before and after it. -/
structure Offer where
  caller : Thread
  before : Machine
  callStacks : List CallStack
  policy : Policy
  result : Except Fault (Option Metrics)
  returned : Thread
  after : Machine

namespace Offer

/-- The call can come to this as long as nobody else asks for a collection or collects meanwhile. -/
def Happens (offer : Offer) : Prop :=
  Routine.Returns (Beside Unprompted) (collectStacks offer.callStacks offer.policy)
    (offer.caller, offer.before) offer.result (offer.returned, offer.after)

/-- What the thread has reported during the call. -/
def records (offer : Offer) : List Record :=
  (offer.returned.trace.take
    (offer.returned.trace.length - offer.caller.trace.length)).reverse

/-- Whether a collection has begun, by what came of the call. -/
def hasBegun (offer : Offer) : Bool :=
  match offer.result with
  | .ok (some _) | .error (.failed _) => true
  | _ => false

/-- Whether a collection was asked for and has not begun, by what came of the call. -/
def isLate (offer : Offer) : Bool :=
  match offer.result with
  | .ok none => offer.before.env.cycle.pressure
  | _ => false

/-- The thread has reported what the call did, and is as it was otherwise. The call leaves nothing
to do in a pool that had nothing to do. -/
structure Faithful (offer : Offer) : Prop where
  returned : offer.returned = offer.caller.recount offer.records
  narrates : Narrates offer.caller.held offer.before offer.callStacks offer.policy
    (offer.after.pool.shutDown = true) offer.result offer.records
  rested : offer.before.Rested → offer.after.pool.shutDown = true ∨ offer.after.Rested

/-- What a call has reported is what its thread has recounted. -/
theorem records_eq {offer : Offer} {records : List Record}
    (hreturned : offer.returned = offer.caller.recount records) : offer.records = records := by
  have htrace : offer.returned.trace = records.reverse ++ offer.caller.trace :=
    congrArg Thread.trace hreturned
  have hlength : offer.returned.trace.length - offer.caller.trace.length =
      records.reverse.length := by
    rw [htrace, List.length_append, Nat.add_sub_cancel]
  rw [Offer.records, hlength, htrace, List.take_left, List.reverse_reverse]

/-- A call on a collector that is receptive reports what it does, and leaves it receptive. -/
theorem Happens.faithful {offer : Offer} (hhappens : offer.Happens)
    (hready : Receptive offer.before) : offer.Faithful ∧ Receptive offer.after := by
  have hattains := hready.attains_narrates offer.caller offer.callStacks offer.policy
  obtain ⟨⟨records, hreturned, hshows⟩, hfree⟩ := hattains.of_returns hhappens
  obtain rfl := records_eq hreturned
  refine ⟨⟨hreturned, hshows.ledger.1, fun hrested => ?_⟩, hshows.mono fun _ hl => hl.2, hfree⟩
  have hbefore : Ready offer.before :=
    ⟨hready.usable.calm, hready.usable.level, .inr ⟨hrested.1, hrested.2, hready.free⟩⟩
  obtain ⟨hafter, -⟩ := hbefore.gather (hhappens.mono fun _ _ hstep => ⟨hstep.1, hstep.2.around⟩)
  exact hafter.ledger.imp (fun hshut => hshut) fun hrest => ⟨hrest.1, hrest.2.1⟩

/-- The collections that begin are those that have begun. -/
theorem Faithful.countP_opensCollection {offer : Offer} (hfaithful : offer.Faithful) :
    offer.records.countP Record.opensCollection = if offer.hasBegun then 1 else 0 := by
  have hnarrates := hfaithful.narrates
  unfold hasBegun
  generalize offer.result = result, offer.records = records at hnarrates ⊢
  cases hnarrates with
  | refused _ => rfl
  | unasked _ => rfl
  | late _ _ => rfl
  | begun _ _ _ hrecounts => cases hrecounts <;> rfl

/-- A call warns if it comes too late, and only then. -/
theorem Faithful.countP_isWarning {offer : Offer} (hfaithful : offer.Faithful) :
    offer.records.countP Record.isWarning = if offer.isLate then 1 else 0 := by
  have hnarrates := hfaithful.narrates
  unfold isLate
  generalize offer.result = result, offer.records = records at hnarrates ⊢
  cases hnarrates with
  | refused _ => rfl
  | unasked hunasked =>
    rw [hunasked]
    rfl
  | late hasked _ =>
    rw [hasked]
    rfl
  | begun _ _ _ hrecounts => cases hrecounts <;> rfl

end Offer

/-- What was reported during these calls, of which the first is the latest, in the order of time. -/
def told : List Offer → List Record
  | [] => []
  | offer :: earlier => told earlier ++ offer.records

/-- A collector between its collections, with the calls that have offered to collect, the latest
first.

Others may have tasks in its pool, before a call and while it goes on, as long as nobody but the
collector sweeps. -/
inductive Narrated : List Offer → Machine → Prop
  | create {workers : Nat} {name : String} {pool : Pool Job Tally} {world : World}
      (hpool : Pool.create? workers name = .ok pool) (hfree : world.cycle.busy = false) :
      Narrated [] ⟨pool, world⟩
  | around {log : List Offer} {machine machine' : Machine} (hbefore : Narrated log machine)
      (haround : Around False machine machine') : Narrated log machine'
  | edit {log : List Offer} {pool : Pool Job Tally} {world world' : World}
      (hbefore : Narrated log ⟨pool, world⟩) (hbusy : world'.cycle.busy = world.cycle.busy) :
      Narrated log ⟨pool, world'⟩
  /-- Others use the pool for tasks of their own, which may kill workers. Some of the tasks may
  still be queued or run. -/
  | lend {log : List Offer} {pool pool' : Pool Job Tally} {world : World}
      (hbefore : Narrated log ⟨pool, world⟩) (hlent : Shows Usable ⟨pool', world⟩) :
      Narrated log ⟨pool', world⟩
  | offer {log : List Offer} {offer : Offer} (hbefore : Narrated log offer.before)
      (hhappens : offer.Happens) : Narrated (offer :: log) offer.after

variable {log : List Offer} {machine machine' : Machine}

/-- A new collector is receptive. -/
theorem receptive_create {workers : Nat} {name : String} {pool : Pool Job Tally} {world : World}
    (hpool : Pool.create? workers name = .ok pool) (hfree : world.cycle.busy = false) :
    Receptive ⟨pool, world⟩ := by
  obtain rfl := Pool.eq_create hpool
  obtain ⟨hcalm, hflight, -⟩ := calm_create workers name
  exact ⟨⟨hcalm, fun _ => trivial, .inr (shared_of_idle hflight)⟩, hfree⟩

theorem Receptive.around (hready : Receptive machine) (haround : Around False machine machine') :
    Receptive machine' := by
  refine ⟨stable_holds steady_true kept_usable _ _ hready.usable haround, ?_⟩
  obtain ⟨choice, i, hstep⟩ | ⟨-, hstep⟩ := haround
  · obtain heq | ⟨_, _, _, hbody⟩ := Worksite.workerStep_env hstep
    · rw [heq]
      exact hready.free
    · rw [Job.step_cycle hbody]
      exact hready.free
  · exact hstep.world.busy.trans hready.free

/-- All calls on a collector have reported what they did. -/
theorem Narrated.faithful (hnarrated : Narrated log machine) :
    (∀ offer ∈ log, offer.Faithful) ∧ Receptive machine := by
  induction hnarrated with
  | create hpool hfree => exact ⟨List.forall_mem_nil _, receptive_create hpool hfree⟩
  | around _ haround ih => exact ⟨ih.1, ih.2.around haround⟩
  | edit _ hbusy ih =>
    obtain ⟨hlog, hready⟩ := ih
    exact ⟨hlog, ⟨hready.usable.calm, hready.usable.level, hready.usable.ledger.setEnv _⟩,
      hbusy.trans hready.free⟩
  | lend _ hlent ih => exact ⟨ih.1, hlent, ih.2.free⟩
  | offer _ hhappens ih =>
    obtain ⟨hlog, hready⟩ := ih
    obtain ⟨hfaithful, hafter⟩ := hhappens.faithful hready
    exact ⟨List.forall_mem_cons.2 ⟨hfaithful, hlog⟩, hafter⟩

/-- What was told altogether is nested. -/
theorem nested_told (hlog : ∀ offer ∈ log, offer.Faithful) : Nested (told log) := by
  induction log with
  | nil => exact .nil
  | cons offer log ih =>
    obtain ⟨hoffer, hlog⟩ := List.forall_mem_cons.1 hlog
    exact (ih hlog).append hoffer.narrates.nested

/-- What is counted in the records of each call is counted in all of them. -/
theorem countP_told {counts : Record → Bool} {holds : Offer → Bool}
    (hlog : ∀ offer ∈ log, offer.records.countP counts = if holds offer then 1 else 0) :
    (told log).countP counts = log.countP holds := by
  induction log with
  | nil => rfl
  | cons offer log ih =>
    obtain ⟨hoffer, hlog⟩ := List.forall_mem_cons.1 hlog
    rw [told, List.countP_append, ih hlog, hoffer, List.countP_cons]

/-- What is reported agrees with what was done. -/
structure Accurate (log : List Offer) : Prop where
  faithful : ∀ offer ∈ log, offer.Faithful
  /-- This holds of any of the calls, such as those of one thread. -/
  nested : ∀ offers, offers.Sublist log → Nested (told offers)
  left : ∀ span, (told log).count (.opened span) = (told log).count (.left span)
  begun : (told log).countP Record.opensCollection = log.countP Offer.hasBegun
  warned : (told log).countP Record.isWarning = log.countP Offer.isLate

/-- Whatever calls to collect are made, one after another, and however they end, the threads that
make them report what they do. -/
theorem narrated_accurate (hnarrated : Narrated log machine) : Accurate log := by
  have hfaithful := hnarrated.faithful.1
  refine ⟨hfaithful, ?nested, (nested_told hfaithful).count_opened, ?begun, ?warned⟩
  case nested =>
    exact fun offers hoffers => nested_told fun offer hmem => hfaithful offer (hoffers.subset hmem)
  case begun =>
    exact countP_told fun offer hmem => (hfaithful offer hmem).countP_opensCollection
  case warned =>
    exact countP_told fun offer hmem => (hfaithful offer hmem).countP_isWarning

theorem narrated_knotted : Narrated [] knotted := by
  have hpool : Pool.create? 2 "gc-worker" = .ok (Pool.create 2 "gc-worker" : Pool Job Tally) :=
    rfl
  have hnew : Narrated [] ⟨Pool.create 2 "gc-worker", { knotted.env with marks := {} }⟩ :=
    .create hpool rfl
  exact hnew.edit rfl

/-- The collector of the knot, with a job of somebody else in its pool. -/
def lodged : Machine :=
  { knotted with
    pool :=
      { knotted.pool with
        queue := Fifo.empty.push ⟨.handle 0, .mark { sheet := .spare, rows := [] }, 0⟩
        board := (Board.openHandle {}).2
        workEnabled := true } }

/-- The same collector when the job has ended. -/
def vacated : Machine :=
  { knotted with
    pool :=
      { knotted.pool with
        workers := [{ stage := .awake true }, {}]
        board := (Board.openHandle {}).2.tell 0 (.delivered (.value ⟨0, 0⟩))
        workEnabled := true } }

theorem narrated_lodged : Narrated [] lodged := by
  have hcalm := (calm_create 2 "gc-worker").1
  refine narrated_knotted.lend ⟨⟨rfl, hcalm.manned, ?_, hcalm.plain, hcalm.free⟩, fun _ => trivial,
    .inr ?_⟩
  · intro task hmem
    obtain rfl := List.mem_singleton.1 hmem
    exact nofun
  · have hidle : Shared [] knotted.ledger := shared_of_idle rfl
    have hopened : ∀ id, Audience.handle 0 = .handle id → Ledger.Opened id
        { knotted.ledger with board := knotted.ledger.board.openHandle.2 } := by
      rintro _ ⟨⟩
      exact hidle.numbered.openHandle.2
    exact hidle.openHandle.queue rfl hopened

/-- When the job has ended, the pool has nothing to do. -/
theorem ready_vacated : Ready vacated := by
  have hcalm := (calm_create 2 "gc-worker").1
  refine ⟨⟨rfl, fun _ => ⟨{}, by simp [vacated], rfl⟩, nofun, ?_, ?_⟩, fun _ => trivial,
    .inr ⟨rfl, rfl, rfl⟩⟩ <;>
  · intro worker hmem
    obtain rfl | rfl : worker = { stage := .awake true } ∨ worker = {} := by
      simpa [vacated] using hmem
    · rfl
    · rfl

/-- A worker takes the job and ends it. -/
theorem workerStep_lodged :
    (Worksite.workerStep Job.body 0 0 lodged).bind (Worksite.workerStep Job.body 0 0) =
      some vacated := rfl

/-- What can come of a collection after the job has ended can come of it while the job is queued. -/
theorem returns_lodged {t : Thread} {x : Thread × Machine}
    {result : Except Fault (Option Metrics)}
    (hreturns : Routine.Returns (Beside (Around True)) (collectStacks callStacks policy)
      (t, vacated) result x) :
    Routine.Returns (Beside Unprompted) (collectStacks callStacks policy) (t, lodged) result x := by
  obtain ⟨middle, hfirst, hsecond⟩ := Option.bind_eq_some_iff.1 workerStep_lodged
  have hrest := hreturns.mono fun _ _ hstep =>
    (⟨hstep.1, .inl (workerStep_of_around hstep.2)⟩ : Beside Unprompted _ _)
  have hothers : ∀ {machine machine' : Machine}, Unprompted machine machine' →
      Routine.Together (Beside Unprompted) (collectStacks callStacks policy, (t, machine))
        (collectStacks callStacks policy, (t, machine')) := fun hstep => .others ⟨rfl, hstep⟩
  exact .head (hothers (.inl ⟨0, 0, hfirst⟩)) (.head (hothers (.inl ⟨0, 0, hsecond⟩)) hrest)

theorem unprompted_of_around {x y : Thread × Machine} (hstep : Beside (Around True) x y) :
    Beside Unprompted x y :=
  ⟨hstep.1, .inl (workerStep_of_around hstep.2)⟩

/-- A thread collects while a job of somebody else is queued, and offers to collect again, which
nobody has asked for. -/
theorem narrated_accurate_knot :
    ∃ log machine, Narrated log machine ∧ Accurate log ∧
      log.map Offer.hasBegun = [false, true] ∧ (told log).countP Record.opensCollection = 1 ∧
      ∃ offer ∈ log, ¬offer.before.Rested := by
  have hends := (ready_vacated.quiet rfl).ends_collect (t := {}) (Nat.zero_le _) [[0]]
    .markAndSweep
  obtain ⟨result, ⟨t, machine⟩, hreturns, hfinished⟩ := hends.exists_returns
  obtain ⟨metrics, rfl, hpressure⟩ : ∃ metrics, result = .ok (some metrics) ∧
      machine.env.cycle.pressure = false := by
    have houtcome : Outcome vacated.env [[0]] result machine.env := hfinished.outcome
    obtain ⟨metrics?, rfl⟩ := houtcome.exists_ok Heap.knot_intact
    generalize machine.env = world at houtcome
    cases houtcome with
    | unasked hpressure => cases hpressure
    | collected _ _ => exact ⟨_, rfl, rfl⟩
  have hrank : t.held.rank ≤ Level.cycle.rank := by
    rw [hfinished.held]
    exact Nat.zero_le _
  have hends' := hfinished.quiet.ends_collect hrank [[0]] .markAndSweep
  obtain ⟨result', ⟨t', machine'⟩, hreturns', hfinished'⟩ := hends'.exists_returns
  obtain rfl : result' = .ok none := by
    have houtcome : Outcome machine.env [[0]] result' machine'.env := hfinished'.outcome
    generalize machine'.env = world at houtcome
    cases houtcome with
    | unasked _ => rfl
    | collected hasked _ => cases hpressure.symm.trans hasked
    | failed hasked _ _ => cases hpressure.symm.trans hasked
  have hfirst : Narrated
      [⟨{}, lodged, [[0]], .markAndSweep, .ok (some metrics), t, machine⟩] machine :=
    narrated_lodged.offer (returns_lodged hreturns)
  have hsecond : Narrated
      [⟨t, machine, [[0]], .markAndSweep, .ok none, t', machine'⟩,
        ⟨{}, lodged, [[0]], .markAndSweep, .ok (some metrics), t, machine⟩] machine' :=
    hfirst.offer (hreturns'.mono fun _ _ => unprompted_of_around)
  have haccurate := narrated_accurate hsecond
  refine ⟨_, machine', hsecond, haccurate, rfl, haccurate.begun, _,
    List.mem_cons_of_mem _ List.mem_cons_self, fun hrested => ?_⟩
  cases hrested.1

end Machine

end MarkSweep
