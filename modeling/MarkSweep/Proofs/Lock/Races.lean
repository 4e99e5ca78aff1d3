import MarkSweep.Lock.Race
import MarkSweep.Proofs.Company.Call
import MarkSweep.Proofs.Company.Discipline
import MarkSweep.Proofs.Company.Mirror
import MarkSweep.Total

namespace MarkSweep

open Call (Nobody)
open Routine (Together)

variable {σ α : Type}

/-- What nobody changes stays as it is. -/
theorem reflTransGen_nobody_iff {s s' : σ} : Relation.ReflTransGen Nobody s s' ↔ s = s' := by
  constructor
  · intro hsteps
    obtain heq | ⟨_, hstep, -⟩ := hsteps.cases_head
    · exact heq
    · exact hstep.elim
  · rintro rfl
    exact .refl

namespace Routine

/-- The program can always go on. -/
def Prompt : Routine σ α → Prop
  | done _ => True
  | step act next => (∀ s, ∃ choice b s', act choice s = some (b, s')) ∧ ∀ b, Prompt (next b)

theorem prompt_ofUpdate (f : σ → Except Fault (α × σ)) : (ofUpdate f).Prompt := by
  refine ⟨fun s => ⟨0, _, _, rfl⟩, fun seen => ?_⟩
  simp only [done_bind]
  rcases f seen with fault | ⟨a, s⟩
  · exact trivial
  · exact ⟨fun s => ⟨0, _, _, rfl⟩, fun _ => trivial⟩

theorem returns_atomic_iff {β : Type} {f : σ → β × σ} {s s' : σ} {b : β} :
    (atomic f).Returns Nobody s b s' ↔ f s = (b, s') := by
  refine returns_step_iff.trans ?_
  constructor
  · intro hreturns
    obtain ⟨s₁, choice, c, s₂, hcompany, hact, hend⟩ := hreturns
    obtain rfl := reflTransGen_nobody_iff.1 hcompany
    obtain ⟨rfl, rfl⟩ := returns_done_iff.1 hend
    exact Option.some.inj hact
  · intro heq
    exact ⟨s, 0, b, s', .refl, congrArg some heq, .refl⟩

/-- A reading and a writing that nobody comes between are one step. -/
theorem returns_ofUpdate_iff {f : σ → Except Fault (α × σ)} {s s' : σ} {result : Except Fault α} :
    (ofUpdate f).Returns Nobody s result s' ↔
      match f s with
      | .ok (a, after) => result = .ok a ∧ s' = after
      | .error fault => result = .error fault ∧ s' = s := by
  have hread : (ofUpdate f).Returns Nobody s result s' ↔ Returns Nobody (match f s with
      | .ok (a, after) => atomic fun _ => (.ok a, after)
      | .error fault => done (.error fault)) s result s' := by
    refine returns_bind_iff.trans ⟨?_, ?_⟩
    · rintro ⟨seen, s₁, hread, hthen⟩
      cases returns_atomic_iff.1 hread
      exact hthen
    · exact fun hthen => ⟨s, s, returns_atomic_iff.2 rfl, hthen⟩
  rw [hread]
  rcases f s with fault | ⟨a, after⟩
  · refine returns_done_iff.trans ?_
    exact and_congr eq_comm eq_comm
  · refine returns_atomic_iff.trans (Prod.ext_iff.trans ?_)
    exact and_congr eq_comm eq_comm

end Routine

namespace Racer

/-- The thread holds the lock. -/
def Holds (racer : Racer σ α) : Prop := ∃ rest, racer.stage = .holding rest

/-- What a thread can do next, and what becomes of the flag and of the value. -/
inductive Move : Racer σ α → Bool → σ → Racer σ α → Bool → σ → Prop
  /-- Its exchange fails, and it waits. -/
  | miss {current : CriticalSection σ α} {rest : List (CriticalSection σ α)}
      {answers : List (Option (Except Fault α))} {locked : Bool} {value : σ}
      (hwaits : current.waits = true) :
      Move ⟨current :: rest, .trying, answers⟩ locked value
        ⟨current :: rest, .watching, answers⟩ locked value
  /-- Its exchange fails, and it does not wait. -/
  | skip {current : CriticalSection σ α} {rest : List (CriticalSection σ α)}
      {answers : List (Option (Except Fault α))} {value : σ} (hwaits : current.waits = false) :
      Move ⟨current :: rest, .trying, answers⟩ true value
        ⟨rest, .trying, answers ++ [none]⟩ true value
  /-- Its exchange succeeds. -/
  | enter {current : CriticalSection σ α} {rest : List (CriticalSection σ α)}
      {answers : List (Option (Except Fault α))} {value : σ} :
      Move ⟨current :: rest, .trying, answers⟩ false value
        ⟨current :: rest, .holding current.body, answers⟩ true value
  /-- It finds that the flag looks free. -/
  | look {current : CriticalSection σ α} {rest : List (CriticalSection σ α)}
      {answers : List (Option (Except Fault α))} {value : σ} :
      Move ⟨current :: rest, .watching, answers⟩ false value
        ⟨current :: rest, .trying, answers⟩ false value
  /-- It goes on with its critical section. -/
  | go {current : CriticalSection σ α} {rest : List (CriticalSection σ α)}
      {answers : List (Option (Except Fault α))} {locked : Bool} {value value' : σ} {β : Type}
      {act : Choice → σ → Option (β × σ)} {next : β → Routine σ (Except Fault α)}
      {choice : Choice} {b : β} (hact : act choice value = some (b, value')) :
      Move ⟨current :: rest, .holding (.step act next), answers⟩ locked value
        ⟨current :: rest, .holding (next b), answers⟩ locked value'
  /-- It gives the lock back. -/
  | leave {current : CriticalSection σ α} {rest : List (CriticalSection σ α)}
      {answers : List (Option (Except Fault α))} {locked : Bool} {value : σ}
      {result : Except Fault α} :
      Move ⟨current :: rest, .holding (.done result), answers⟩ locked value
        ⟨CriticalSection.after result rest, .trying, answers ++ [some result]⟩ false value

theorem move_of_step {choice : Choice} {racer racer' : Racer σ α} {locked locked' : Bool}
    {value value' : σ} (hstep : racer.step choice locked value = some (racer', locked', value')) :
    racer.Move locked value racer' locked' value' := by
  obtain ⟨_ | ⟨current, rest⟩, stage, answers⟩ := racer
  · cases hstep
  cases stage with
  | trying =>
    simp only [step] at hstep
    split at hstep
    · next hwaits =>
      split at hstep
      · cases hstep
        exact .miss hwaits
      · next hfree =>
        cases hstep
        obtain rfl : locked = false := by simpa using fun h => hfree (.inl h)
        exact .enter
    · next hwaits =>
      split at hstep
      · next hlocked =>
        cases hstep
        cases hlocked
        exact .skip (Bool.eq_false_iff.2 hwaits)
      · next hlocked =>
        cases hstep
        cases Bool.eq_false_iff.2 hlocked
        exact .enter
  | watching =>
    simp only [step] at hstep
    split at hstep
    · cases hstep
    · next hlocked =>
      cases hstep
      cases Bool.eq_false_iff.2 hlocked
      exact .look
  | holding body =>
    cases body with
    | done result =>
      cases hstep
      exact .leave
    | step act next =>
      obtain ⟨⟨b, after⟩, hact, heq⟩ := Option.map_eq_some_iff.1 hstep
      cases heq
      exact .go hact

end Racer

namespace Race

/-- What may happen in a race, in the long run. -/
def Runs : Race σ α → Race σ α → Prop :=
  Relation.ReflTransGen fun race race' => ∃ choice i, race.step choice i = some race'

/-- The thread at a place holds the lock. -/
def Holds (race : Race σ α) (i : Nat) : Prop := ∃ racer, race.racers[i]? = some racer ∧ racer.Holds

/-- Every thread has come to its end. -/
def Finished (race : Race σ α) : Prop := ∀ racer ∈ race.racers, racer.sections = []

/-- What came of a critical section of a thread, if that is behind it. -/
def answer? (race : Race σ α) (i place : Nat) : Option (Option (Except Fault α)) :=
  race.racers[i]?.bind (·.answers[place]?)

/-- A race is over when all have gone through their sections. -/
theorem finished_iff {race : Race σ α} :
    race.Finished ↔ race.racers.all (·.sections.isEmpty) = true := by
  simp [Finished]

variable {race race' : Race σ α} {choice : Choice} {i : Nat}

/-- The first step that can be taken is a step. -/
theorem runs_of_firstStep? (hstep : race.firstStep? = some race') : Runs race race' := by
  obtain ⟨i, -, hstep⟩ := List.exists_of_findSome?_eq_some hstep
  exact .single ⟨0, i, hstep⟩

/-- What the threads do in the ordinary course may happen. -/
theorem runs_run (fuel : Nat) (race : Race σ α) : Runs race (race.run fuel) := by
  induction fuel generalizing race with
  | zero => exact .refl
  | succ fuel ih =>
    rw [run]
    split
    · next race₁ hstep => exact (runs_of_firstStep? hstep).trans (ih race₁)
    · exact .refl

/-- A step of a race is a move of one thread, which leaves the others alone. -/
theorem step_cases (hstep : race.step choice i = some race') :
    ∃ racer racer' locked value, race.racers[i]? = some racer ∧
      racer.Move race.locked race.value racer' locked value ∧
      race' = ⟨locked, value, race.racers.set i racer'⟩ := by
  obtain ⟨racer, hget, hstep⟩ := Option.bind_eq_some_iff.1 hstep
  obtain ⟨⟨racer', locked, value⟩, hmove, heq⟩ := Option.map_eq_some_iff.1 hstep
  exact ⟨racer, racer', locked, value, hget, Racer.move_of_step hmove, heq.symm⟩

section Set

variable {racer racer' : Racer σ α} {locked : Bool} {value : σ}

theorem holds_set_self (hget : race.racers[i]? = some racer) :
    Holds ⟨locked, value, race.racers.set i racer'⟩ i ↔ racer'.Holds := by
  have hlt := (List.getElem?_eq_some_iff.1 hget).1
  simp [Holds, hlt]

theorem holds_set_ne {j : Nat} (hij : i ≠ j) :
    Holds ⟨locked, value, race.racers.set i racer'⟩ j ↔ race.Holds j := by
  simp only [Holds, List.getElem?_set_ne hij]

theorem holds_iff (hget : race.racers[i]? = some racer) : race.Holds i ↔ racer.Holds := by
  simp [Holds, hget]

theorem answer?_set_self (hget : race.racers[i]? = some racer) (place : Nat) :
    answer? ⟨locked, value, race.racers.set i racer'⟩ i place = racer'.answers[place]? := by
  have hlt := (List.getElem?_eq_some_iff.1 hget).1
  simp [answer?, hlt]

theorem answer?_set_ne {j : Nat} (hij : i ≠ j) (place : Nat) :
    answer? ⟨locked, value, race.racers.set i racer'⟩ j place = race.answer? j place := by
  simp only [answer?, List.getElem?_set_ne hij]

end Set

/-- The flag is up as long as a thread holds the lock, and no two do. -/
structure Exclusive (race : Race σ α) : Prop where
  sole : ∀ i j, race.Holds i → race.Holds j → i = j
  flag : race.locked = true ↔ ∃ i, race.Holds i

namespace Exclusive

theorem of_start {value : σ} {programs : List (List (CriticalSection σ α))} :
    (start value programs).Exclusive := by
  have hfree : ∀ i, ¬(start value programs).Holds i := by
    rintro i ⟨racer, hget, rest, hstage⟩
    rw [start, List.getElem?_map] at hget
    obtain ⟨sections, -, rfl⟩ := Option.map_eq_some_iff.1 hget
    cases hstage
  refine ⟨fun i j hi => absurd hi (hfree i), ?_⟩
  constructor
  · exact nofun
  · exact fun ⟨i, hi⟩ => absurd hi (hfree i)

/-- While the flag is down nobody holds the lock. -/
theorem not_holds (h : race.Exclusive) (hfree : race.locked = false) (i : Nat) : ¬race.Holds i := by
  intro hi
  rw [h.flag.2 ⟨i, hi⟩] at hfree
  cases hfree

/-- A step between two moments at both of which its thread holds the lock, or does not. -/
theorem set_of_iff (h : race.Exclusive) {racer racer' : Racer σ α} {value : σ}
    (hget : race.racers[i]? = some racer) (hholds : racer'.Holds ↔ racer.Holds) :
    Exclusive ⟨race.locked, value, race.racers.set i racer'⟩ := by
  have hsame : ∀ j, Holds ⟨race.locked, value, race.racers.set i racer'⟩ j ↔ race.Holds j := by
    intro j
    by_cases hij : i = j
    · subst hij
      rw [holds_set_self hget, hholds, holds_iff hget]
    · exact holds_set_ne hij
  refine ⟨?_, ?_⟩
  · intro j k hj hk
    exact h.sole j k ((hsame j).1 hj) ((hsame k).1 hk)
  · exact h.flag.trans (exists_congr fun j => (hsame j).symm)

/-- A free lock is taken. -/
theorem set_enter (h : race.Exclusive) {racer racer' : Racer σ α} {value : σ}
    (hget : race.racers[i]? = some racer) (hfree : race.locked = false) (hholds : racer'.Holds) :
    Exclusive ⟨true, value, race.racers.set i racer'⟩ := by
  have honly : ∀ j, Holds ⟨true, value, race.racers.set i racer'⟩ j → i = j := by
    intro j hj
    by_cases hij : i = j
    · exact hij
    · exact absurd ((holds_set_ne hij).1 hj) (h.not_holds hfree j)
  refine ⟨?_, ?_⟩
  · intro j k hj hk
    exact (honly j hj).symm.trans (honly k hk)
  · exact ⟨fun _ => ⟨i, (holds_set_self hget).2 hholds⟩, fun _ => rfl⟩

/-- The lock is given back by its holder. -/
theorem set_leave (h : race.Exclusive) {racer racer' : Racer σ α} {value : σ}
    (hget : race.racers[i]? = some racer) (hholds : racer.Holds) (hleft : ¬racer'.Holds) :
    Exclusive ⟨false, value, race.racers.set i racer'⟩ := by
  have hnobody : ∀ j, ¬Holds ⟨false, value, race.racers.set i racer'⟩ j := by
    intro j hj
    by_cases hij : i = j
    · subst hij
      exact hleft ((holds_set_self hget).1 hj)
    · exact hij (h.sole i j ((holds_iff hget).2 hholds) ((holds_set_ne hij).1 hj))
  refine ⟨fun j k hj => absurd hj (hnobody j), ?_⟩
  exact ⟨nofun, fun ⟨j, hj⟩ => absurd hj (hnobody j)⟩

/-- At most one thread holds the lock after every step. -/
theorem step (h : race.Exclusive) (hstep : race.step choice i = some race') : race'.Exclusive := by
  obtain ⟨racer, racer', locked, value, hget, hmove, rfl⟩ := step_cases hstep
  obtain ⟨raceLocked, raceValue, racers⟩ := race
  cases hmove with
  | miss | skip | look => exact h.set_of_iff hget (by simp [Racer.Holds])
  | go hact => exact h.set_of_iff hget (by simp [Racer.Holds])
  | enter => exact h.set_enter hget rfl ⟨_, rfl⟩
  | leave => exact h.set_leave hget ⟨_, rfl⟩ (by simp [Racer.Holds])

/-- A thread can only begin to hold the lock when nobody holds it. -/
theorem of_acquires (h : race.Exclusive) (hstep : race.step choice i = some race')
    (hbefore : ¬race.Holds i) (hafter : race'.Holds i) (j : Nat) : ¬race.Holds j := by
  obtain ⟨racer, racer', locked, value, hget, hmove, rfl⟩ := step_cases hstep
  obtain ⟨raceLocked, raceValue, racers⟩ := race
  rw [holds_iff hget] at hbefore
  rw [holds_set_self hget] at hafter
  cases hmove with
  | miss | skip | look | leave => simp [Racer.Holds] at hafter
  | go hact => exact absurd ⟨_, rfl⟩ hbefore
  | enter => exact h.not_holds rfl j

/-- A thread that does not wait skips its critical section only when somebody holds the lock. -/
theorem of_skips (h : race.Exclusive) (hstep : race.step choice i = some race') {place : Nat}
    (hbefore : race.answer? i place = none) (hafter : race'.answer? i place = some none) :
    ∃ j, race.Holds j := by
  obtain ⟨racer, racer', locked, value, hget, hmove, rfl⟩ := step_cases hstep
  obtain ⟨raceLocked, raceValue, racers⟩ := race
  have hnone : racer.answers[place]? = none := by simpa [answer?, hget] using hbefore
  rw [answer?_set_self hget] at hafter
  cases hmove with
  | miss | enter | look | go hact =>
    cases hnone.symm.trans hafter
  | skip => exact h.flag.1 rfl
  | leave =>
    rw [List.getElem?_append_right (List.getElem?_eq_none_iff.1 hnone),
      List.getElem?_singleton] at hafter
    split at hafter <;> cases hafter

end Exclusive

/-- What came of a critical section that was gone through. -/
structure Passage (α : Type) where
  /-- Whose it was, and at which place of its program it stands. -/
  racer : Nat
  place : Nat
  result : Except Fault α

/-- One after another and without company, the critical sections of these passages lead from one
value to another. -/
inductive Serial (programs : List (List (CriticalSection σ α))) (initial : σ) :
    List (Passage α) → σ → Prop
  | nil : Serial programs initial [] initial
  | snoc {log : List (Passage α)} {value value' : σ} {passage : Passage α}
      {current : CriticalSection σ α} (hlog : Serial programs initial log value)
      (hsection : programs[passage.racer]?.bind (·[passage.place]?) = some current)
      (hreturns : current.body.Returns Nobody value passage.result value') :
      Serial programs initial (log ++ [passage]) value'

end Race

namespace Racer

/-- A thread has its program before it, less what it has an answer for, unless a fault has ended
it. -/
def OnCourse (program : List (CriticalSection σ α)) (racer : Racer σ α) : Prop :=
  racer.sections = program.drop racer.answers.length ∨
    racer.sections = [] ∧ ∃ fault, some (.error fault) ∈ racer.answers

variable {program rest : List (CriticalSection σ α)} {current : CriticalSection σ α}
  {stage stage' : RacerStage σ α} {answers : List (Option (Except Fault α))}

theorem OnCourse.drop_eq (h : OnCourse program ⟨current :: rest, stage, answers⟩) :
    program.drop answers.length = current :: rest := by
  obtain heq | ⟨hempty, -⟩ := h
  · exact heq.symm
  · cases hempty

/-- A thread that is on course has its next critical section from its program. -/
theorem OnCourse.next (h : OnCourse program ⟨current :: rest, stage, answers⟩) :
    program[answers.length]? = some current := by
  have hhead := congrArg (·[0]?) h.drop_eq
  simpa using hhead

theorem OnCourse.rest_eq (h : OnCourse program ⟨current :: rest, stage, answers⟩) :
    rest = program.drop (answers.length + 1) := by
  rw [← List.tail_drop, h.drop_eq, List.tail_cons]

/-- A thread goes through its program section by section. -/
theorem OnCourse.move {racer racer' : Racer σ α} {locked locked' : Bool} {value value' : σ}
    (h : racer.OnCourse program) (hmove : racer.Move locked value racer' locked' value') :
    racer'.OnCourse program := by
  cases hmove with
  | miss | enter | look | go => exact h
  | skip => exact .inl (by simp [h.rest_eq])
  | @leave _ _ _ _ _ result =>
    cases result with
    | ok a => exact .inl (by simp [CriticalSection.after, h.rest_eq])
    | error fault => exact .inr ⟨rfl, fault, by simp⟩

end Racer

namespace Race

variable {programs : List (List (CriticalSection σ α))} {initial : σ} {race race' : Race σ α}
  {log : List (Passage α)} {choice : Choice} {i : Nat}

/-- A race as its journal has it: which critical sections were gone through, in the order in which
the lock was given back. -/
structure Journal (programs : List (List (CriticalSection σ α))) (initial : σ) (race : Race σ α)
    (log : List (Passage α)) : Prop where
  length : race.racers.length = programs.length
  /-- The threads follow their programs. -/
  onCourse : ∀ (i : Nat) (racer : Racer σ α), race.racers[i]? = some racer →
    ∃ program, programs[i]? = some program ∧ racer.OnCourse program
  /-- Each thread goes through its critical sections in order, and through none of them twice. -/
  ordered : log.Pairwise fun passage later =>
    passage.racer = later.racer → passage.place < later.place
  answered : ∀ passage : Passage α,
    passage ∈ log ↔ race.answer? passage.racer passage.place = some (some passage.result)
  /-- What is skipped is a critical section whose thread does not wait. -/
  skipped : ∀ i place : Nat, race.answer? i place = some none →
    ∃ current, programs[i]?.bind (·[place]?) = some current ∧ current.waits = false
  free : race.locked = false → Serial programs initial log race.value
  /-- The holder is alone with what the one before it has left. -/
  held : ∀ (i : Nat) (racer : Racer σ α) (p : Routine σ (Except Fault α)),
    race.racers[i]? = some racer → racer.stage = .holding p →
      ∃ current rest value, racer.sections = current :: rest ∧ Serial programs initial log value ∧
        Relation.ReflTransGen (Together Nobody) (current.body, value) (p, race.value)

namespace Journal

theorem of_start : Journal programs initial (start initial programs) [] := by
  have hget : ∀ (i : Nat) (racer : Racer σ α),
      (start initial programs).racers[i]? = some racer →
        ∃ program, programs[i]? = some program ∧ (⟨program, .trying, []⟩ : Racer σ α) = racer := by
    intro i racer hget
    rw [start, List.getElem?_map] at hget
    exact Option.map_eq_some_iff.1 hget
  have hanswer : ∀ i place answer, (start initial programs).answer? i place ≠ some answer := by
    intro i place answer hanswer
    obtain ⟨racer, hracer, hplace⟩ := Option.bind_eq_some_iff.1 hanswer
    obtain ⟨program, -, rfl⟩ := hget _ _ hracer
    cases hplace
  refine ⟨List.length_map .., ?_, .nil, ?_, ?_, fun _ => .nil, ?_⟩
  · intro i racer hracer
    obtain ⟨program, hprogram, rfl⟩ := hget i racer hracer
    exact ⟨program, hprogram, .inl rfl⟩
  · exact fun passage => ⟨nofun, fun hpassage => absurd hpassage (hanswer _ _ _)⟩
  · exact fun i place hskipped => absurd hskipped (hanswer _ _ _)
  · intro i racer p hracer hstage
    obtain ⟨program, -, rfl⟩ := hget i _ hracer
    cases hstage

/-- What has an answer is behind its thread. -/
theorem place_lt (h : Journal programs initial race log) {racer : Racer σ α} {passage : Passage α}
    (hmem : passage ∈ log) (hget : race.racers[passage.racer]? = some racer) :
    passage.place < racer.answers.length := by
  have hanswer := (h.answered passage).1 hmem
  rw [answer?, hget, Option.bind_some] at hanswer
  exact (List.getElem?_eq_some_iff.1 hanswer).1

theorem length_set (h : Journal programs initial race log) {racer' : Racer σ α} :
    (race.racers.set i racer').length = programs.length := by
  rw [List.length_set, h.length]

/-- The threads still follow their programs after one of them has moved. -/
theorem onCourse_set (h : Journal programs initial race log) {racer racer' : Racer σ α}
    {locked : Bool} {value : σ} (hget : race.racers[i]? = some racer)
    (hmove : racer.Move race.locked race.value racer' locked value) (j : Nat) (other : Racer σ α)
    (hother : (race.racers.set i racer')[j]? = some other) :
    ∃ program, programs[j]? = some program ∧ other.OnCourse program := by
  obtain ⟨rfl, rfl⟩ | ⟨-, hsame⟩ := getElem?_set_cases hother
  · obtain ⟨program, hprogram, hcourse⟩ := h.onCourse i racer hget
    exact ⟨program, hprogram, hcourse.move hmove⟩
  · exact h.onCourse j other hsame

/-- A thread that has moved has skipped only what it does not wait for. -/
theorem skipped_set (h : Journal programs initial race log) {racer racer' : Racer σ α}
    {locked : Bool} {value : σ} (hget : race.racers[i]? = some racer)
    (hmove : racer.Move race.locked race.value racer' locked value) (j place : Nat)
    (hskipped : answer? ⟨locked, value, race.racers.set i racer'⟩ j place = some none) :
    ∃ current, programs[j]?.bind (·[place]?) = some current ∧ current.waits = false := by
  by_cases hij : i = j
  · subst hij
    rw [answer?_set_self hget] at hskipped
    by_cases hbefore : racer.answers[place]? = some none
    · exact h.skipped i place (by rw [answer?, hget, Option.bind_some, hbefore])
    · obtain ⟨program, hprogram, hcourse⟩ := h.onCourse i racer hget
      obtain ⟨raceLocked, raceValue, racers⟩ := race
      cases hmove with
      | miss | enter | look | go => exact absurd hskipped hbefore
      | @skip current rest answers value hwaits =>
        have hplace : place = answers.length := by grind
        exact ⟨current, by rw [hprogram, Option.bind_some, hplace, hcourse.next], hwaits⟩
      | leave => grind
  · rw [answer?_set_ne hij] at hskipped
    exact h.skipped j place hskipped

/-- A step after which no critical section has been gone through that had not been before. -/
theorem answered_set (h : Journal programs initial race log) {racer racer' : Racer σ α}
    {locked : Bool} {value : σ} (hget : race.racers[i]? = some racer)
    (hsame : ∀ (place : Nat) (result : Except Fault α),
      racer'.answers[place]? = some (some result) ↔ racer.answers[place]? = some (some result))
    (passage : Passage α) :
    passage ∈ log ↔
      answer? ⟨locked, value, race.racers.set i racer'⟩ passage.racer passage.place =
        some (some passage.result) := by
  rw [h.answered]
  by_cases hi : i = passage.racer
  · subst hi
    rw [answer?_set_self hget, hsame, answer?, hget, Option.bind_some]
  · rw [answer?_set_ne hi]

/-- A thread that only looks at the flag changes nothing that the journal tells. -/
theorem set_of_idle (h : Journal programs initial race log) {racer racer' : Racer σ α}
    (hget : race.racers[i]? = some racer)
    (hmove : racer.Move race.locked race.value racer' race.locked race.value)
    (hidle : ¬racer'.Holds)
    (hsame : ∀ (place : Nat) (result : Except Fault α),
      racer'.answers[place]? = some (some result) ↔ racer.answers[place]? = some (some result)) :
    Journal programs initial ⟨race.locked, race.value, race.racers.set i racer'⟩ log := by
  refine ⟨h.length_set, h.onCourse_set hget hmove, h.ordered, h.answered_set hget hsame,
    h.skipped_set hget hmove, h.free, ?_⟩
  intro j other p hother hstage
  obtain ⟨rfl, rfl⟩ | ⟨-, hother⟩ := getElem?_set_cases hother
  · exact absurd ⟨p, hstage⟩ hidle
  · exact h.held j other p hother hstage

/-- A free lock is taken. -/
theorem set_enter {value : σ} {racers : List (Racer σ α)}
    (h : Journal programs initial ⟨false, value, racers⟩ log) {current : CriticalSection σ α}
    {rest : List (CriticalSection σ α)} {answers : List (Option (Except Fault α))}
    (hget : racers[i]? = some ⟨current :: rest, .trying, answers⟩) :
    Journal programs initial
      ⟨true, value, racers.set i ⟨current :: rest, .holding current.body, answers⟩⟩ log := by
  refine ⟨h.length_set, h.onCourse_set hget .enter, h.ordered,
    h.answered_set hget fun _ _ => Iff.rfl, h.skipped_set hget .enter, nofun, ?_⟩
  intro j other p hother hstage
  obtain ⟨rfl, rfl⟩ | ⟨-, hother⟩ := getElem?_set_cases hother
  · cases hstage
    exact ⟨current, rest, value, rfl, h.free rfl, .refl⟩
  · exact h.held j other p hother hstage

/-- The holder goes on with its critical section. -/
theorem set_go (h : Journal programs initial race log) (hexclusive : race.Exclusive)
    {current : CriticalSection σ α} {rest : List (CriticalSection σ α)}
    {answers : List (Option (Except Fault α))} {β : Type} {act : Choice → σ → Option (β × σ)}
    {next : β → Routine σ (Except Fault α)} {b : β} {value : σ}
    (hget : race.racers[i]? = some ⟨current :: rest, .holding (.step act next), answers⟩)
    (hact : act choice race.value = some (b, value)) :
    Journal programs initial
      ⟨race.locked, value, race.racers.set i ⟨current :: rest, .holding (next b), answers⟩⟩
      log := by
  have hholds : race.Holds i := ⟨_, hget, _, rfl⟩
  refine ⟨h.length_set, h.onCourse_set hget (.go hact), h.ordered,
    h.answered_set hget fun _ _ => Iff.rfl, h.skipped_set hget (.go hact), ?_, ?_⟩
  · intro hfree
    exact absurd hholds (hexclusive.not_holds hfree i)
  · intro j other p hother hstage
    obtain ⟨rfl, rfl⟩ | ⟨hij, hother⟩ := getElem?_set_cases hother
    · cases hstage
      obtain ⟨_, _, base, heq, hserial, hsteps⟩ := h.held _ _ _ hget rfl
      cases heq
      exact ⟨current, rest, base, rfl, hserial, hsteps.tail (.own hact)⟩
    · exact absurd (hexclusive.sole i j hholds ⟨_, hother, p, hstage⟩) hij

/-- The holder gives the lock back, and one more critical section has been gone through. -/
theorem set_leave (h : Journal programs initial race log) (hexclusive : race.Exclusive)
    {current : CriticalSection σ α} {rest : List (CriticalSection σ α)}
    {answers : List (Option (Except Fault α))} {result : Except Fault α}
    (hget : race.racers[i]? = some ⟨current :: rest, .holding (.done result), answers⟩) :
    Journal programs initial
      ⟨false, race.value, race.racers.set i
        ⟨CriticalSection.after result rest, .trying, answers ++ [some result]⟩⟩
      (log ++ [⟨i, answers.length, result⟩]) := by
  have hholds : race.Holds i := ⟨_, hget, _, rfl⟩
  refine ⟨h.length_set, h.onCourse_set hget .leave, ?_, ?_, h.skipped_set hget .leave,
    fun _ => ?_, ?_⟩
  · refine List.pairwise_append.2 ⟨h.ordered, List.pairwise_singleton _ _, ?_⟩
    intro passage hmem later hlater hsame
    obtain rfl := List.mem_singleton.1 hlater
    have hsame : passage.racer = i := hsame
    exact h.place_lt hmem (hsame ▸ hget)
  · rintro ⟨j, place, result'⟩
    rw [List.mem_append, List.mem_singleton, h.answered]
    by_cases hij : i = j
    · subst hij
      rw [answer?_set_self hget, answer?, hget, Option.bind_some]
      simp only [List.getElem?_append, Passage.mk.injEq, true_and]
      grind
    · rw [answer?_set_ne hij]
      refine ⟨?_, .inl⟩
      rintro (hanswer | heq)
      · exact hanswer
      · cases heq
        exact absurd rfl hij
  · obtain ⟨program, hprogram, hcourse⟩ := h.onCourse i _ hget
    obtain ⟨_, _, base, heq, hserial, hsteps⟩ := h.held _ _ _ hget rfl
    cases heq
    have hsection : programs[i]?.bind (·[answers.length]?) = some current := by
      rw [hprogram, Option.bind_some, hcourse.next]
    exact hserial.snoc hsection hsteps
  · intro j other p hother hstage
    obtain ⟨-, rfl⟩ | ⟨hij, hother⟩ := getElem?_set_cases hother
    · cases hstage
    · exact absurd (hexclusive.sole i j hholds ⟨_, hother, p, hstage⟩) hij

theorem step (h : Journal programs initial race log) (hexclusive : race.Exclusive)
    (hstep : race.step choice i = some race') : ∃ log', Journal programs initial race' log' := by
  obtain ⟨racer, racer', locked, value, hget, hmove, rfl⟩ := step_cases hstep
  obtain ⟨raceLocked, raceValue, racers⟩ := race
  have hmove' := hmove
  cases hmove with
  | miss | look =>
    exact ⟨log, h.set_of_idle hget hmove' (by simp [Racer.Holds]) fun _ _ => Iff.rfl⟩
  | skip =>
    refine ⟨log, h.set_of_idle hget hmove' (by simp [Racer.Holds]) fun place result => ?_⟩
    simp only [List.getElem?_append]
    grind
  | enter => exact ⟨log, h.set_enter hget⟩
  | go hact => exact ⟨log, h.set_go hexclusive hget hact⟩
  | leave => exact ⟨_, h.set_leave hexclusive hget⟩

end Journal

/-- Every passage is through a section of a program. -/
theorem Serial.exists_section {value : σ} (h : Serial programs initial log value)
    {passage : Passage α} (hmem : passage ∈ log) :
    ∃ current, programs[passage.racer]?.bind (·[passage.place]?) = some current := by
  induction h with
  | nil => cases hmem
  | snoc _ hsection _ ih =>
    obtain hmem | hmem := List.mem_append.1 hmem
    · exact ih hmem
    · obtain rfl := List.mem_singleton.1 hmem
      exact ⟨_, hsection⟩

/-- A journal tells of no critical section twice. -/
theorem Journal.nodup (h : Journal programs initial race log) :
    (log.map fun passage => (passage.racer, passage.place)).Nodup := by
  refine List.pairwise_map.2 (h.ordered.imp fun hordered heq => ?_)
  obtain ⟨hracer, hplace⟩ := Prod.mk.inj heq
  have := hordered hracer
  omega

/-- What the journal tells leads to some value, if only to what the holder has found. -/
theorem Journal.exists_serial (h : Journal programs initial race log)
    (hexclusive : race.Exclusive) : ∃ value, Serial programs initial log value := by
  cases hlocked : race.locked with
  | false => exact ⟨race.value, h.free hlocked⟩
  | true =>
    obtain ⟨i, racer, hget, p, hstage⟩ := hexclusive.flag.1 hlocked
    obtain ⟨_, _, value, -, hserial, -⟩ := h.held i racer p hget hstage
    exact ⟨value, hserial⟩

/-- A thread that waits for the lock skips nothing. -/
theorem Journal.answer_eq (h : Journal programs initial race log)
    (hwaits : ∀ program ∈ programs, ∀ current ∈ program, current.waits = true) {place : Nat}
    {answer : Option (Except Fault α)} (hanswer : race.answer? i place = some answer) :
    ∃ passage ∈ log, passage.racer = i ∧ passage.place = place ∧ answer = some passage.result := by
  cases answer with
  | none =>
    obtain ⟨current, hsection, hskips⟩ := h.skipped i place hanswer
    obtain ⟨program, hprogram, hcurrent⟩ := Option.bind_eq_some_iff.1 hsection
    rw [hwaits program (List.mem_of_getElem? hprogram) current (List.mem_of_getElem? hcurrent)]
      at hskips
    cases hskips
  | some result => exact ⟨⟨i, place, result⟩, (h.answered _).2 hanswer, rfl, rfl, rfl⟩

/-- When every thread has come to its end without a fault, each has an answer for every critical
section of its program. -/
theorem Journal.exists_answer (h : Journal programs initial race log) (hfinished : race.Finished)
    (hfault : ∀ i place fault, race.answer? i place ≠ some (some (.error fault))) {place : Nat}
    {current : CriticalSection σ α}
    (hsection : programs[i]?.bind (·[place]?) = some current) :
    ∃ answer, race.answer? i place = some answer := by
  obtain ⟨program, hprogram, hcurrent⟩ := Option.bind_eq_some_iff.1 hsection
  have hlt : i < race.racers.length := by
    rw [h.length]
    exact (List.getElem?_eq_some_iff.1 hprogram).1
  obtain ⟨racer, hget⟩ : ∃ racer, race.racers[i]? = some racer :=
    ⟨_, List.getElem?_eq_getElem hlt⟩
  obtain ⟨program', hprogram', hcourse⟩ := h.onCourse i racer hget
  obtain rfl := Option.some.inj (hprogram.symm.trans hprogram')
  have hplace := (List.getElem?_eq_some_iff.1 hcurrent).1
  obtain hdrop | ⟨-, fault, hmem⟩ := hcourse
  · rw [hfinished racer (List.mem_of_getElem? hget)] at hdrop
    have hlong := List.drop_eq_nil_iff.1 hdrop.symm
    refine ⟨racer.answers[place], ?_⟩
    rw [answer?, hget, Option.bind_some, List.getElem?_eq_getElem]
  · obtain ⟨place', hfaulted⟩ := List.mem_iff_getElem?.1 hmem
    refine absurd ?_ (hfault i place' fault)
    rw [answer?, hget, Option.bind_some, hfaulted]

/-- Whatever has happened in a race, at most one thread holds the lock, and the race has a
journal. -/
theorem Runs.journal (hrun : Runs (start initial programs) race) :
    race.Exclusive ∧ ∃ log, Journal programs initial race log := by
  induction hrun with
  | refl => exact ⟨.of_start, [], .of_start⟩
  | tail _ hstep ih =>
    obtain ⟨hexclusive, log, hjournal⟩ := ih
    obtain ⟨choice, i, hstep⟩ := hstep
    exact ⟨hexclusive.step hstep, hjournal.step hexclusive hstep⟩

end Race

/-- The thread has to wait for nothing but the lock. -/
structure Racer.Unhindered (racer : Racer σ α) : Prop where
  ahead : ∀ current ∈ racer.sections, current.body.Prompt
  rest : ∀ p, racer.stage = .holding p → p.Prompt ∧ racer.sections ≠ []

/-- A thread that need not wait inside a section still need not after a move. -/
theorem Racer.Unhindered.move {racer racer' : Racer σ α} {locked locked' : Bool} {value value' : σ}
    (h : racer.Unhindered) (hmove : racer.Move locked value racer' locked' value') :
    racer'.Unhindered := by
  cases hmove with
  | miss | look => exact ⟨h.ahead, nofun⟩
  | skip => exact ⟨fun current hmem => h.ahead current (List.mem_cons_of_mem _ hmem), nofun⟩
  | @enter current =>
    refine ⟨h.ahead, ?_⟩
    rintro p ⟨⟩
    exact ⟨h.ahead current (List.mem_cons_self ..), nofun⟩
  | go =>
    refine ⟨h.ahead, ?_⟩
    rintro p ⟨⟩
    exact ⟨(h.rest _ rfl).1.2 _, nofun⟩
  | @leave _ _ _ _ _ result =>
    cases result with
    | ok a => exact ⟨fun current hmem => h.ahead current (List.mem_cons_of_mem _ hmem), nofun⟩
    | error fault => exact ⟨nofun, nofun⟩

namespace Race

variable {race race' : Race σ α} {choice : Choice} {i : Nat}

/-- No thread has to wait for anything but the lock. -/
def Unhindered (race : Race σ α) : Prop := ∀ racer ∈ race.racers, racer.Unhindered

/-- The critical sections that are still before the threads. -/
def left (race : Race σ α) : Nat := total id (race.racers.map (·.sections.length))

/-- A race that nobody holds up is not held up after a step. -/
theorem Unhindered.step (h : race.Unhindered) (hstep : race.step choice i = some race') :
    race'.Unhindered := by
  obtain ⟨racer, racer', locked, value, hget, hmove, rfl⟩ := step_cases hstep
  intro other hmem
  obtain hmem | rfl := List.mem_or_eq_of_mem_set hmem
  · exact h other hmem
  · exact (h racer (List.mem_of_getElem? hget)).move hmove

/-- A move leaves as many sections as the thread has before it. -/
theorem left_set {racer : Racer σ α} (hget : race.racers[i]? = some racer) (racer' : Racer σ α)
    (locked : Bool) (value : σ) :
    left ⟨locked, value, race.racers.set i racer'⟩ + racer.sections.length =
      race.left + racer'.sections.length := by
  have hlength : (race.racers.map (·.sections.length))[i]? = some racer.sections.length := by
    rw [List.getElem?_map, hget, Option.map_some]
  rw [left, List.map_set]
  exact total_set id hlength

theorem Unhindered.runs (h : race.Unhindered) (hrun : Runs race race') : race'.Unhindered := by
  induction hrun with
  | refl => exact h
  | tail _ hstep ih =>
    obtain ⟨choice, i, hstep⟩ := hstep
    exact ih.step hstep

theorem Exclusive.runs (h : race.Exclusive) (hrun : Runs race race') : race'.Exclusive := by
  induction hrun with
  | refl => exact h
  | tail _ hstep ih =>
    obtain ⟨choice, i, hstep⟩ := hstep
    exact ih.step hstep

section Progress

variable {current : CriticalSection σ α} {rest : List (CriticalSection σ α)}
  {answers : List (Option (Except Fault α))}

/-- Whoever holds the lock comes to give it back. -/
theorem exists_leave {p : Routine σ (Except Fault α)} (hp : p.Prompt)
    (hget : race.racers[i]? = some ⟨current :: rest, .holding p, answers⟩) :
    ∃ race', Runs race race' ∧ race'.left < race.left := by
  induction p generalizing race with
  | done result =>
    have hstep : race.step 0 i = some ⟨false, race.value, race.racers.set i
        ⟨CriticalSection.after result rest, .trying, answers ++ [some result]⟩⟩ := by
      rw [Race.step, hget]
      rfl
    refine ⟨_, .single ⟨0, i, hstep⟩, ?_⟩
    have hleft := left_set hget
      ⟨CriticalSection.after result rest, .trying, answers ++ [some result]⟩ false race.value
    have hafter : (CriticalSection.after result rest).length ≤ rest.length := by
      cases result <;> simp [CriticalSection.after]
    simp only [List.length_cons] at hleft
    omega
  | step act next ih =>
    obtain ⟨choice, b, value, hact⟩ := hp.1 race.value
    have hstep : race.step choice i = some ⟨race.locked, value, race.racers.set i
        ⟨current :: rest, .holding (next b), answers⟩⟩ := by
      rw [Race.step, hget, Option.bind_some]
      simp only [Racer.step, hact, Option.map_some]
    have hlt := (List.getElem?_eq_some_iff.1 hget).1
    obtain ⟨race', hrun, hleft⟩ := @ih b ⟨race.locked, value, race.racers.set i
      ⟨current :: rest, .holding (next b), answers⟩⟩ (hp.2 b) (List.getElem?_set_self hlt)
    refine ⟨race', .head ⟨choice, i, hstep⟩ hrun, ?_⟩
    have hsame := left_set hget ⟨current :: rest, .holding (next b), answers⟩ race.locked value
    simp only [Nat.add_right_cancel_iff] at hsame
    omega

/-- A thread takes a free lock. -/
theorem exists_enter {value : σ} {racers : List (Racer σ α)} {stage₀ : RacerStage σ α}
    (hget : racers[i]? = some ⟨current :: rest, stage₀, answers⟩) :
    ∃ race', Runs ⟨false, value, racers⟩ race' ∧ race'.left = left ⟨false, value, racers⟩ ∧
      race'.Holds i := by
  have hlt := (List.getElem?_eq_some_iff.1 hget).1
  have hstays : ∀ (stage : RacerStage σ α) (locked : Bool),
      left ⟨locked, value, racers.set i ⟨current :: rest, stage, answers⟩⟩ =
        left ⟨false, value, racers⟩ := fun stage locked => by
    have hfree : (⟨false, value, racers⟩ : Race σ α).racers[i]? =
        some ⟨current :: rest, stage₀, answers⟩ := hget
    simpa only [Nat.add_right_cancel_iff] using
      left_set hfree ⟨current :: rest, stage, answers⟩ locked value
  have henter : ∀ racers : List (Racer σ α),
      racers[i]? = some ⟨current :: rest, .trying, answers⟩ →
        Race.step 0 i ⟨false, value, racers⟩ =
          some ⟨true, value, racers.set i ⟨current :: rest, .holding current.body, answers⟩⟩ := by
    intro racers hget
    rw [Race.step, hget, Option.bind_some]
    cases hwaits : current.waits <;> simp [Racer.step, hwaits]
  cases stage₀ with
  | trying =>
    exact ⟨_, .single ⟨0, i, henter racers hget⟩, hstays _ _, _, List.getElem?_set_self hlt, _, rfl⟩
  | watching =>
    have hlook : Race.step 0 i ⟨false, value, racers⟩ =
        some ⟨false, value, racers.set i ⟨current :: rest, .trying, answers⟩⟩ := by
      rw [Race.step, hget, Option.bind_some]
      rfl
    have hthen := henter _ (List.getElem?_set_self hlt)
    rw [List.set_set] at hthen
    exact ⟨_, .head ⟨0, i, hlook⟩ (.single ⟨0, i, hthen⟩), hstays _ _, _,
      List.getElem?_set_self hlt, _, rfl⟩
  | holding p => exact ⟨_, .refl, rfl, _, hget, _, rfl⟩

end Progress

/-- As long as a thread has not come to its end, the race can go on to where less is left. -/
theorem exists_progress (hexclusive : race.Exclusive) (hunhindered : race.Unhindered)
    (hmore : ¬race.Finished) : ∃ race', Runs race race' ∧ race'.left < race.left := by
  have hheld : ∀ {race : Race σ α} {i : Nat}, race.Unhindered → race.Holds i →
      ∃ race', Runs race race' ∧ race'.left < race.left := by
    rintro race i hunhindered ⟨⟨sections, stage, answers⟩, hget, p, rfl⟩
    obtain ⟨hprompt, hsome⟩ := (hunhindered _ (List.mem_of_getElem? hget)).rest p rfl
    cases sections with
    | nil => exact absurd rfl hsome
    | cons current rest => exact exists_leave hprompt hget
  obtain ⟨locked, value, racers⟩ := race
  cases locked with
  | true =>
    obtain ⟨i, hi⟩ := hexclusive.flag.1 rfl
    exact hheld hunhindered hi
  | false =>
    simp only [Finished, Classical.not_forall] at hmore
    obtain ⟨⟨sections, stage, answers⟩, hmem, hsome⟩ := hmore
    obtain ⟨i, hget⟩ := List.mem_iff_getElem?.1 hmem
    cases sections with
    | nil => exact absurd rfl hsome
    | cons current rest =>
      obtain ⟨race₁, hrun, hleft, hholds⟩ := exists_enter hget
      obtain ⟨race', hthen, hless⟩ := hheld (hunhindered.runs hrun) hholds
      exact ⟨race', hrun.trans hthen, hleft ▸ hless⟩

/-- Whatever has happened in a race, it can come to an end. -/
theorem exists_finish (hexclusive : race.Exclusive) (hunhindered : race.Unhindered) :
    ∃ race', Runs race race' ∧ race'.Finished := by
  induction hleft : race.left using Nat.strongRecOn generalizing race with
  | _ left ih =>
    by_cases hfinished : race.Finished
    · exact ⟨race, .refl, hfinished⟩
    · obtain ⟨race₁, hrun, hless⟩ := exists_progress hexclusive hunhindered hfinished
      obtain ⟨race', hthen, hend⟩ := ih race₁.left (hleft ▸ hless) (hexclusive.runs hrun)
        (hunhindered.runs hrun) rfl
      exact ⟨race', hrun.trans hthen, hend⟩

/-- At the end of a race the lock is free. -/
theorem Finished.locked_eq (hfinished : race.Finished) (hexclusive : race.Exclusive)
    (hunhindered : race.Unhindered) : race.locked = false := by
  refine Bool.eq_false_iff.2 fun hlocked => ?_
  obtain ⟨i, racer, hget, p, hstage⟩ := hexclusive.flag.1 hlocked
  have hmem := List.mem_of_getElem? hget
  exact ((hunhindered racer hmem).rest p hstage).2 (hfinished racer hmem)

/-- Sections that never wait hold up nobody. -/
theorem unhindered_start {initial : σ} {programs : List (List (CriticalSection σ α))}
    (hprompt : ∀ program ∈ programs, ∀ current ∈ program, current.body.Prompt) :
    (start initial programs).Unhindered := by
  intro racer hmem
  obtain ⟨program, hprogram, rfl⟩ := List.mem_map.1 hmem
  exact ⟨hprompt program hprogram, nofun⟩

end Race

end MarkSweep
