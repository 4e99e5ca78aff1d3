import Mathlib.Algebra.Order.BigOperators.Group.List
import MarkSweep.Proofs.Pool.Books
import MarkSweep.Proofs.Pool.Chronicle
import MarkSweep.Total

namespace MarkSweep

variable {β ε ρ : Type}

/-- Replacing a member of a list changes a sum by the difference of the two counts. -/
theorem sum_map_set {α : Type*} (count : α → Nat) {l : List α} {i : Nat} {a b : α}
    (hget : l[i]? = some a) :
    ((l.set i b).map count).sum + count a = (l.map count).sum + count b := by
  induction l generalizing i with
  | nil => cases hget
  | cons c l ih =>
    cases i with
    | zero =>
      cases hget
      simp only [List.set_cons_zero, List.map_cons, List.sum_cons]
      omega
    | succ i =>
      have hrest := ih hget
      simp only [List.set_cons_succ, List.map_cons, List.sum_cons]
      omega

/-- The end of a task. -/
structure Ending (β ρ : Type) where
  /-- The number of its pool. -/
  plant : Nat
  /-- Its place among the tasks that were begun there. -/
  place : Nat
  /-- The task as it was accepted. -/
  task : Task β
  outcome : Outcome ρ

/-- What others may hear of the end of a task. -/
def Ending.news (ending : Ending β ρ) : Audience × Outcome ρ :=
  (ending.task.audience, ending.outcome)

/-- The end of the task that a worker is about to end, if it is. -/
def Plant.ending? (B : Body β ε ρ) (p i : Nat) (c : Plant β ε ρ) : Option (Ending β ρ) :=
  match c.post i, c.site.outcome? B i with
  | some k, some outcome => c.begun[k]?.map fun task => ⟨p, k, task, outcome⟩
  | _, _ => none

/-- The estate notes the end of a task when the worker ends it, under the task's own name. -/
theorem Plant.Orderly.ending? {B : Body β ε ρ} {c : Plant β ε ρ} {stands : Nat → Pool.Standing ρ}
    (h : c.Orderly stands) (p i : Nat) :
    (c.ending? B p i).toList.map Ending.news = (c.site.ending? B i).toList ∧
      (c.ending? B p i).toList.map (·.place) =
        (if (c.site.outcome? B i).isSome then (c.post i).toList else []) ∧
      ∀ ending ∈ (c.ending? B p i).toList, ending.plant = p ∧
        c.begun[ending.place]? = some ending.task := by
  cases houtcome : c.site.outcome? B i with
  | none =>
    have hending : c.ending? B p i = none := by
      unfold Plant.ending?
      rw [houtcome]
      cases c.post i <;> rfl
    have hsilent : c.site.ending? B i = none := by
      unfold Worksite.ending?
      rw [houtcome]
      cases (c.site.pool.stage i).audience? <;> rfl
    rw [hending, hsilent]
    exact ⟨rfl, rfl, nofun⟩
  | some outcome =>
    obtain ⟨k, task, hpost, htask, hnews⟩ := h.exists_begun houtcome
    have hending : c.ending? B p i = some ⟨p, k, task, outcome⟩ := by
      unfold Plant.ending?
      rw [houtcome, hpost]
      dsimp only
      rw [htask]
      rfl
    rw [hending, hnews, hpost]
    refine ⟨rfl, rfl, fun ending hmem => ?_⟩
    obtain rfl := List.mem_singleton.1 hmem
    exact ⟨rfl, htask⟩

/-- Pools with one board. What the pools themselves keep of the board and of what their tasks share
is out of date. -/
structure Estate (β ε ρ : Type) where
  /-- What the tasks share. -/
  env : ε
  /-- The handles and groups. -/
  board : Board ρ := {}
  plants : List (Plant β ε ρ) := []
  /-- For each handle the pool at which it was made, and at whose hands. -/
  homes : List (Nat × Origin) := []
  /-- The tasks that have ended, the earliest first. -/
  ends : List (Ending β ρ) := []

namespace Estate

/-- A plant with what it shares with the others. -/
def view (e : Estate β ε ρ) (c : Plant β ε ρ) : Plant β ε ρ :=
  { c with site := ⟨{ c.site.pool with board := e.board }, e.env⟩ }

/-- A plant has gone on, at the hands of `origin`. -/
def update (e : Estate β ε ρ) (p : Nat) (origin : Origin) (c : Plant β ε ρ) : Estate β ε ρ :=
  { e with
    env := c.site.env
    board := c.site.pool.board
    plants := e.plants.set p c
    homes := e.homes ++
      List.replicate (c.site.pool.board.nextHandle - e.board.nextHandle) (p, origin) }

/-- What can happen next. -/
inductive Step (B : Body β ε ρ) : Estate β ε ρ → Estate β ε ρ → Prop
  /-- A pool is made. -/
  | found {e : Estate β ε ρ} {workers : Nat} {name : String} {pool : Pool β ρ}
      (hpool : Pool.create? workers name = .ok pool) :
      Step B e { e with plants := e.plants ++ [{ site := ⟨pool, e.env⟩ }] }
  /-- A client makes a call on a pool. -/
  | arrive {e : Estate β ε ρ} {p : Nat} {c : Plant β ε ρ} (hplant : e.plants[p]? = some c)
      (errand : Pool.Errand β) (caller : Thread) :
      Step B e
        { e with
          plants := e.plants.set p
            { c with visits := c.visits ++ [⟨errand, caller, caller, errand.call⟩] } }
  /-- A call takes its next step. -/
  | call {e : Estate β ε ρ} {p i : Nat} {c : Plant β ε ρ}
      {visit visit' : Visit (Pool.Errand β) (Worksite β ε ρ) (Pool.Answer ρ)}
      {site : Worksite β ε ρ} (hplant : e.plants[p]? = some c) (hget : c.visits[i]? = some visit)
      (hstep : visit.Step (e.view c).site visit' site)
      (hhas : ∀ queued ∈ c.site.pool.grown site.pool, e.board.Has queued.audience) :
      Step B e
        (e.update p (.client i)
          { (e.view c).advance (.client i) site with visits := c.visits.set i visit' })
  /-- A worker takes a step. -/
  | work {e : Estate β ε ρ} {p i : Nat} {c : Plant β ε ρ} {choice : Choice}
      {site : Worksite β ε ρ} (hplant : e.plants[p]? = some c)
      (hstep : Worksite.workerStep B choice i (e.view c).site = some site)
      (hhas : ∀ queued ∈ c.site.pool.grown site.pool, e.board.Has queued.audience) :
      Step B e
        { e.update p (.worker i)
            (((e.view c).advance (.worker i) site).record i (c.site.pool.stage i)
              (site.pool.stage i)) with
          ends := e.ends ++ ((e.view c).ending? B p i).toList }
  /-- A worker wakes up although nobody woke it. -/
  | rouse {e : Estate β ε ρ} {p : Nat} {c : Plant β ε ρ} (hplant : e.plants[p]? = some c)
      (i : Nat) :
      Step B e
        { e with
          plants := e.plants.set p
            { c with site.pool.workers := c.site.pool.workers.modify i Worker.woken } }
  /-- What the tasks share changes. -/
  | others {e : Estate β ε ρ} (env : ε) : Step B e { e with env }

/-- A plant, with a note of how far each of its calls is. -/
structure Attended (β ε ρ : Type) where
  plant : Plant β ε ρ
  stands : Nat → Pool.Standing ρ

/-- The books of an estate. -/
noncomputable def books (e : Estate β ε ρ) (crew : List (Attended β ε ρ)) : Books ρ where
  board := e.board
  claims audience :=
    (crew.map fun x => headcount (Pool.Standing.claims audience) x.stands).sum
  seats audience := (crew.map fun x => x.plant.site.pool.seats.count audience).sum
  accepted audience :=
    (crew.map fun x => (x.plant.accepted.map (·.2.audience)).count audience).sum
  ended := e.ends.map Ending.news

/-- The history of each plant agrees with its pool and with the tasks that have ended, and the books
are sound. -/
structure Upheld (e : Estate β ε ρ) (crew : List (Attended β ε ρ)) : Prop where
  plants : e.plants = crew.map (·.plant)
  orderly : ∀ x ∈ crew, x.plant.Orderly x.stands
  sound : (e.books crew).Sound
  ended : ∀ p x, crew[p]? = some x →
    x.plant.ended = (e.ends.filter (·.plant == p)).map (·.place)
  begun : ∀ ending ∈ e.ends, ∃ x, crew[ending.plant]? = some x ∧
    x.plant.begun[ending.place]? = some ending.task

/-- What a step at plant `p` does to the estate. -/
structure Passage (e : Estate β ε ρ) (p : Nat) (x : Attended β ε ρ) (e' : Estate β ε ρ)
    (x' : Attended β ε ρ) (change : Change ρ) (endings : List (Ending β ρ)) : Prop where
  plants : e'.plants = e.plants.set p x'.plant
  orderly : x'.plant.Orderly x'.stands
  deal : e.board.Deal change e'.board
  seats : ∃ stay, x.plant.site.pool.seats.Perm (change.left ++ stay) ∧
    x'.plant.site.pool.seats.Perm (change.entered ++ stay)
  claims : ∀ audience, ∃ stay,
    headcount (Pool.Standing.claims audience) x.stands = change.ceded.count audience + stay ∧
      headcount (Pool.Standing.claims audience) x'.stands = change.claimed.count audience + stay
  accepted : x'.plant.accepted.map (·.2.audience) =
    x.plant.accepted.map (·.2.audience) ++ change.accepted
  ends : e'.ends = e.ends ++ endings
  news : endings.map Ending.news = change.ended
  ended : x'.plant.ended = x.plant.ended ++ endings.map (·.place)
  begun : x.plant.begun <+: x'.plant.begun
  found : ∀ ending ∈ endings, ending.plant = p ∧ x'.plant.begun[ending.place]? = some ending.task

variable {e e' : Estate β ε ρ} {crew : List (Attended β ε ρ)} {p : Nat} {x x' : Attended β ε ρ}
  {change : Change ρ} {endings : List (Ending β ρ)}

/-- A passage on one plant is a turn of the books of all. -/
theorem Passage.turn (hpassage : Passage e p x e' x' change endings) (hget : crew[p]? = some x) :
    Books.Turn change (e.books crew) (e'.books (crew.set p x')) := by
  have hmem := List.mem_of_getElem? hget
  obtain ⟨stay, hleft, hentered⟩ := hpassage.seats
  have hseats : ∀ audience, x.plant.site.pool.seats.count audience =
      change.left.count audience + stay.count audience ∧
      x'.plant.site.pool.seats.count audience =
        change.entered.count audience + stay.count audience := by
    intro audience
    rw [hleft.count_eq, hentered.count_eq, List.count_append, List.count_append]
    exact ⟨rfl, rfl⟩
  refine ⟨hpassage.deal, ?claims, ?ceded, ?seats, ?left, ?accepted, ?ended⟩
  case claims =>
    intro audience
    obtain ⟨stay, hbefore, hafter⟩ := hpassage.claims audience
    have hsum := sum_map_set (b := x')
      (fun x => headcount (Pool.Standing.claims audience) x.stands) hget
    simp only [books]
    omega
  case ceded =>
    intro audience
    obtain ⟨stay, hbefore, -⟩ := hpassage.claims audience
    have hle := List.le_sum_of_mem (List.mem_map_of_mem
      (f := fun x => headcount (Pool.Standing.claims audience) x.stands) hmem)
    simp only [books]
    omega
  case seats =>
    intro audience
    obtain ⟨hbefore, hafter⟩ := hseats audience
    have hsum := sum_map_set (b := x')
      (fun x => x.plant.site.pool.seats.count audience) hget
    simp only [books]
    omega
  case left =>
    intro audience
    obtain ⟨hbefore, -⟩ := hseats audience
    have hle := List.le_sum_of_mem (List.mem_map_of_mem
      (f := fun x => x.plant.site.pool.seats.count audience) hmem)
    simp only [books]
    omega
  case accepted =>
    intro audience
    have hsum := sum_map_set (b := x')
      (fun x => (x.plant.accepted.map (·.2.audience)).count audience) hget
    rw [hpassage.accepted, List.count_append] at hsum
    simp only [books]
    omega
  case ended =>
    simp only [books]
    rw [hpassage.ends, List.map_append, hpassage.news]

/-- Every step that is a passage at one of the plants keeps the books. -/
theorem Upheld.passage (h : Upheld e crew) (hget : crew[p]? = some x)
    (hpassage : Passage e p x e' x' change endings) : Upheld e' (crew.set p x') := by
  have hlt := (List.getElem?_eq_some_iff.1 hget).1
  refine ⟨?plants, ?orderly, h.sound.turn (hpassage.turn hget), ?ended, ?begun⟩
  case plants =>
    rw [hpassage.plants, h.plants, List.map_set]
  case orderly =>
    intro y hy
    obtain hy | rfl := List.mem_or_eq_of_mem_set hy
    · exact h.orderly y hy
    · exact hpassage.orderly
  case ended =>
    intro q y hy
    rw [hpassage.ends, List.filter_append, List.map_append]
    obtain ⟨rfl, rfl⟩ | ⟨hq, hy⟩ := getElem?_set_cases hy
    · have hall : endings.filter (·.plant == p) = endings :=
        List.filter_eq_self.2 fun ending hending => beq_iff_eq.2 (hpassage.found ending hending).1
      rw [hall, ← h.ended p x hget]
      exact hpassage.ended
    · have hnone : endings.filter (·.plant == q) = [] := by
        refine List.filter_eq_nil_iff.2 fun ending hending => ?_
        rw [(hpassage.found ending hending).1, beq_iff_eq]
        exact hq
      rw [hnone, List.map_nil, List.append_nil]
      exact h.ended q y hy
  case begun =>
    intro ending hending
    rw [hpassage.ends] at hending
    obtain hending | hending := List.mem_append.1 hending
    · obtain ⟨y, hy, htask⟩ := h.begun ending hending
      by_cases hq : p = ending.plant
      · subst hq
        rw [hget] at hy
        cases hy
        obtain ⟨more, hmore⟩ := hpassage.begun
        refine ⟨x', List.getElem?_set_self hlt, ?_⟩
        rw [← hmore, List.getElem?_append_left (List.getElem?_eq_some_iff.1 htask).1]
        exact htask
      · exact ⟨y, (List.getElem?_set_ne hq).trans hy, htask⟩
    · obtain ⟨rfl, htask⟩ := hpassage.found ending hending
      exact ⟨x', List.getElem?_set_self hlt, htask⟩

/-- A call moves on, and what it claims changes with it. -/
theorem headcount_claims {stands : Nat → Pool.Standing ρ} {k : Pool.Standing ρ} {i : Nat}
    {audience : Audience} (hfew : Few (Pool.Standing.claims audience) stands)
    (ceded claimed stay : List Audience) (hceded : (stands i).seat?.toList = ceded ++ stay)
    (hclaimed : k.seat?.toList = claimed ++ stay) :
    ∃ rest, headcount (Pool.Standing.claims audience) stands = ceded.count audience + rest ∧
      headcount (Pool.Standing.claims audience) (Function.update stands i k) =
        claimed.count audience + rest := by
  have hmove := headcount_update hfew i k
  have hidle := headcount_update hfew i (.finished : Pool.Standing ρ)
  have hnone : (Pool.Standing.claims audience (.finished : Pool.Standing ρ)).toNat = 0 := rfl
  simp only [Pool.Standing.toNat_claims, hceded, hclaimed, List.count_append, hnone] at hmove hidle
  refine ⟨headcount (Pool.Standing.claims audience) stands - ceded.count audience, ?_, ?_⟩
  · omega
  · omega

theorem Upheld.start (env : ε) : Upheld ({ env } : Estate β ε ρ) [] := by
  refine ⟨rfl, nofun, ⟨fun id => ?handle, fun id => ?members⟩, nofun, nofun⟩
  case handle =>
    have hnone : ((∅ : Std.ExtTreeMap HandleId (Delivery ρ))[id]?) = none := by simp
    refine ⟨Nat.zero_le _, Nat.le_refl _, fun _ => ⟨rfl, hnone⟩, fun delivery hdelivery => ?_⟩
    cases hnone.symm.trans hdelivery
  case members =>
    have hnone : ((∅ : Std.ExtTreeMap GroupId Group)[id]?) = none := by simp
    refine ⟨Nat.le_refl _, fun _ => ⟨rfl, rfl, hnone⟩, fun group hgroup => ?_⟩
    cases hnone.symm.trans hgroup

/-- In a new pool nothing is queued or running. -/
theorem books_found (e : Estate β ε ρ) (crew : List (Attended β ε ρ)) {workers : Nat}
    {name : String} {pool : Pool β ρ} (hpool : Pool.create? workers name = .ok pool) :
    books { e with plants := e.plants ++ [{ site := ⟨pool, e.env⟩ }] }
      (crew ++ [⟨{ site := ⟨pool, e.env⟩ }, fun _ => .ready⟩]) = e.books crew := by
  have hseats : pool.seats = [] := by
    obtain rfl := Pool.eq_create hpool
    refine List.filterMap_eq_nil_iff.2 fun worker hmem => ?_
    rw [List.eq_of_mem_replicate hmem]
    rfl
  have hready : ∀ audience,
      headcount (Pool.Standing.claims audience) (fun _ => (.ready : Pool.Standing ρ)) = 0 :=
    fun audience => headcount_eq_zero fun _ => rfl
  simp [books, hready, hseats]

/-- A pool is made. -/
theorem Upheld.found (h : Upheld e crew) {workers : Nat} {name : String} {pool : Pool β ρ}
    (hpool : Pool.create? workers name = .ok pool) :
    Upheld { e with plants := e.plants ++ [{ site := ⟨pool, e.env⟩ }] }
      (crew ++ [⟨{ site := ⟨pool, e.env⟩ }, fun _ => .ready⟩]) := by
  have hbooks := books_found e crew hpool
  have hold : ∀ q y, (crew ++ [⟨{ site := ⟨pool, e.env⟩ }, fun _ => .ready⟩])[q]? = some y →
      crew[q]? = some y ∨ q = crew.length ∧ y = ⟨{ site := ⟨pool, e.env⟩ }, fun _ => .ready⟩ := by
    intro q y hy
    obtain ⟨hq, hnew⟩ | ⟨-, hy⟩ := getElem?_concat_cases hy
    · exact .inr ⟨hq, hnew.symm⟩
    · exact .inl hy
  refine ⟨?plants, ?orderly, hbooks ▸ h.sound, ?ended, ?begun⟩
  case plants => simp [h.plants]
  case orderly =>
    intro y hy
    obtain hy | hy := List.mem_append.1 hy
    · exact h.orderly y hy
    · rw [List.mem_singleton.1 hy]
      exact .start hpool e.env
  case begun =>
    intro ending hending
    obtain ⟨y, hy, htask⟩ := h.begun ending hending
    exact ⟨y, (List.getElem?_append_left (List.getElem?_eq_some_iff.1 hy).1).trans hy, htask⟩
  case ended =>
    intro q y hy
    obtain hy | ⟨rfl, rfl⟩ := hold q y hy
    · exact h.ended q y hy
    · have hnone : e.ends.filter (·.plant == crew.length) = [] := by
        refine List.filter_eq_nil_iff.2 fun ending hending => ?_
        obtain ⟨y, hy, -⟩ := h.begun ending hending
        have hlt := (List.getElem?_eq_some_iff.1 hy).1
        rw [beq_iff_eq]
        omega
      rw [hnone]
      rfl

section Steps

variable {i : Nat}

/-- A step that has nothing to do with any task. -/
theorem Passage.still (horderly : x'.plant.Orderly x'.stands)
    (hplants : e'.plants = e.plants.set p x'.plant) (hboard : e'.board = e.board)
    (hends : e'.ends = e.ends) (hseats : x'.plant.site.pool.seats = x.plant.site.pool.seats)
    (hclaims : ∀ audience, headcount (Pool.Standing.claims audience) x'.stands =
      headcount (Pool.Standing.claims audience) x.stands)
    (haccepted : x'.plant.accepted = x.plant.accepted) (hended : x'.plant.ended = x.plant.ended)
    (hbegun : x'.plant.begun = x.plant.begun) : Passage e p x e' x' {} [] where
  plants := hplants
  orderly := horderly
  deal := hboard ▸ .still
  seats := ⟨_, .refl _, .of_eq hseats⟩
  claims audience := ⟨_, (Nat.zero_add _).symm, (hclaims audience).trans (Nat.zero_add _).symm⟩
  accepted := by rw [haccepted, List.append_nil]
  ends := hends.trans (List.append_nil _).symm
  news := rfl
  ended := hended.trans (List.append_nil _).symm
  begun := hbegun ▸ List.prefix_refl _
  found := nofun

theorem Upheld.passage_arrive (h : Upheld e crew) (hget : crew[p]? = some x)
    (visit : Visit (Pool.Errand β) (Worksite β ε ρ) (Pool.Answer ρ)) :
    Passage e p x
      { e with plants := e.plants.set p { x.plant with visits := x.plant.visits ++ [visit] } }
      ⟨{ x.plant with visits := x.plant.visits ++ [visit] },
        Function.update x.stands x.plant.visits.length visit.errand.start⟩ {} [] := by
  have horderly := h.orderly x (List.mem_of_getElem? hget)
  refine .still (horderly.arrive visit) rfl rfl rfl rfl (fun audience => ?_) rfl rfl rfl
  have hstart : (visit.errand.start : Pool.Standing ρ).seat? = none := by
    cases visit.errand <;> rfl
  have hidle := horderly.strangers x.plant.visits.length (Nat.le_refl _)
  obtain ⟨rest, hbefore, hafter⟩ := headcount_claims (horderly.few audience) [] [] []
    (by rw [hidle]; rfl) (by rw [hstart]; rfl)
  exact hafter.trans hbefore.symm

theorem Upheld.passage_rouse (h : Upheld e crew) (hget : crew[p]? = some x) (i : Nat) :
    Passage e p x
      { e with
        plants := e.plants.set p
          { x.plant with
            site.pool.workers := x.plant.site.pool.workers.modify i Worker.woken } }
      ⟨{ x.plant with
          site.pool.workers := x.plant.site.pool.workers.modify i Worker.woken },
        x.stands⟩ {} [] := by
  have horderly := h.orderly x (List.mem_of_getElem? hget)
  exact .still (horderly.rouse i) rfl rfl rfl (Pool.stirred_modify x.plant.site.pool i).seats
    (fun _ => rfl) rfl rfl rfl

/-- A call takes a step, on whatever errand. -/
theorem Upheld.passage_call (h : Upheld e crew) (hget : crew[p]? = some x)
    (hi : i < x.plant.visits.length) {errand : Pool.Errand β} {k₀ k : Pool.Standing ρ}
    {t t' : Thread} {site : Worksite β ε ρ} (hseat : (x.stands i).seat? = k₀.seat?)
    (hshut : k₀.HasShut → x.plant.site.pool.shutDown = true)
    (hmoves : Pool.Moves errand k₀ t (e.view x.plant).site.pool k t' site.pool)
    (hhas : ∀ queued ∈ x.plant.site.pool.grown site.pool, e.board.Has queued.audience)
    (origin : Origin) (visit : Visit (Pool.Errand β) (Worksite β ε ρ) (Pool.Answer ρ)) :
    ∃ change, (∀ audience ∈ change.consumed, errand.Consumes audience) ∧
      Passage e p x
        (e.update p origin
          { (e.view x.plant).advance origin site with visits := x.plant.visits.set i visit })
        ⟨{ (e.view x.plant).advance origin site with visits := x.plant.visits.set i visit },
          Function.update x.stands i k⟩ change [] := by
  have horderly := h.orderly x (List.mem_of_getElem? hget)
  have horderly' := (horderly.setBoard e.board e.env).call hi hshut hmoves origin visit
  obtain ⟨change, htrade, hnone, hconsumed, stay, hceded, hclaimed⟩ := hmoves.trade hhas
  have hpassage : Passage e p x (e.update p origin _) ⟨_, Function.update x.stands i k⟩ change [] :=
    { plants := rfl
      orderly := horderly'
      deal := htrade.deal
      seats := htrade.seats
      claims audience :=
        headcount_claims (horderly.few audience) _ _ stay (hseat ▸ hceded) hclaimed
      accepted := by
        rw [htrade.accepted]
        simp [Plant.advance, view, Function.comp_def]
      ends := (List.append_nil _).symm
      news := hnone.symm
      ended := (List.append_nil _).symm
      begun := List.prefix_refl _
      found := nofun }
  exact ⟨change, hconsumed, hpassage⟩

/-- A worker takes a step. -/
theorem Upheld.passage_work (h : Upheld e crew) (hget : crew[p]? = some x) {B : Body β ε ρ}
    {choice : Choice} {site : Worksite β ε ρ}
    (hstep : Worksite.workerStep B choice i (e.view x.plant).site = some site)
    (hhas : ∀ queued ∈ x.plant.site.pool.grown site.pool, e.board.Has queued.audience) :
    ∃ change, change.Toils x.plant.site.pool.shutDown ∧
      Passage e p x
        { e.update p (.worker i)
            (((e.view x.plant).advance (.worker i) site).record i (x.plant.site.pool.stage i)
              (site.pool.stage i)) with
          ends := e.ends ++ ((e.view x.plant).ending? B p i).toList }
        ⟨((e.view x.plant).advance (.worker i) site).record i (x.plant.site.pool.stage i)
            (site.pool.stage i),
          x.stands⟩ change ((e.view x.plant).ending? B p i).toList := by
  have horderly : (e.view x.plant).Orderly x.stands :=
    (h.orderly x (List.mem_of_getElem? hget)).setBoard e.board e.env
  obtain ⟨change, htrade, htoils, hended⟩ := Worksite.workerStep_trade hstep hhas
  obtain ⟨hnews, hplaces, hfound⟩ := horderly.ending? (B := B) p i
  obtain ⟨hsite, -, haccepted, hbegun⟩ :=
    Plant.record_eq ((e.view x.plant).advance (.worker i) site) i (x.plant.site.pool.stage i)
      (site.pool.stage i)
  have hrecord := Plant.ended_record_eq ((e.view x.plant).advance (.worker i) site) i
    (x.plant.site.pool.stage i) (site.pool.stage i)
  have hends : (x.plant.site.pool.stage i).hasEnded (site.pool.stage i) =
      ((e.view x.plant).site.outcome? B i).isSome := Worksite.hasEnded_workerStep hstep
  have horderly' := horderly.work hstep
  have hpost : ((e.view x.plant).advance (.worker i) site).post i = (e.view x.plant).post i := rfl
  rw [hends, hpost, ← hplaces] at hrecord
  change Plant.Orderly (((e.view x.plant).advance (.worker i) site).record i
    (x.plant.site.pool.stage i) (site.pool.stage i)) x.stands at horderly'
  generalize ((e.view x.plant).advance (.worker i) site).record i (x.plant.site.pool.stage i)
    (site.pool.stage i) = c' at hsite haccepted hbegun hrecord horderly' ⊢
  subst hsite
  have hpassage : Passage e p x
      { e.update p (.worker i) c' with
        ends := e.ends ++ ((e.view x.plant).ending? B p i).toList }
      ⟨c', x.stands⟩ change ((e.view x.plant).ending? B p i).toList :=
    { plants := rfl
      orderly := horderly'
      deal := htrade.deal
      seats := htrade.seats
      claims audience := by
        rw [htoils.ceded, htoils.claimed]
        exact ⟨_, (Nat.zero_add _).symm, (Nat.zero_add _).symm⟩
      accepted := by
        rw [haccepted, htrade.accepted]
        simp [Plant.advance, view, Function.comp_def]
      ends := rfl
      news := hnews.trans hended.symm
      ended := hrecord
      begun := by
        rw [hbegun]
        exact List.prefix_append _ _
      found ending hmem := by
        obtain ⟨hplant, htask⟩ := hfound ending hmem
        refine ⟨hplant, ?_⟩
        rw [hbegun]
        exact (List.getElem?_append_left (List.getElem?_eq_some_iff.1 htask).1).trans htask }
  exact ⟨change, htoils, hpassage⟩

theorem Upheld.others (h : Upheld e crew) (env : ε) : Upheld { e with env } crew :=
  ⟨h.plants, h.orderly, h.sound, h.ended, h.begun⟩

end Steps

/-- A call goes on from where it stands, or it has nothing under way and begins an errand. -/
inductive Resumes (errand : Pool.Errand β) : Pool.Standing ρ → Pool.Standing ρ → Prop
  | goesOn {k : Pool.Standing ρ} : Resumes errand k k
  | begins {k : Pool.Standing ρ} (hnone : k.seat? = none) : Resumes errand k errand.start

theorem Resumes.seat?_eq {errand : Pool.Errand β} {k k₀ : Pool.Standing ρ}
    (hresumes : Resumes errand k k₀) : k.seat? = k₀.seat? := by
  cases hresumes with
  | goesOn => rfl
  | begins hnone =>
    rw [hnone]
    cases errand <;> rfl

theorem Resumes.hasShut {errand : Pool.Errand β} {k k₀ : Pool.Standing ρ}
    (hresumes : Resumes errand k k₀) (hshut : k₀.HasShut) : k.HasShut := by
  cases hresumes with
  | goesOn => exact hshut
  | begins =>
    cases errand with
    | finalize => exact absurd rfl hshut
    | _ => exact hshut.elim

/-- What can happen next, with a note of how far each call is. A call may go on errand after
errand. -/
inductive Passes (B : Body β ε ρ) : Estate β ε ρ → List (Attended β ε ρ) →
    Estate β ε ρ → List (Attended β ε ρ) → Prop
  | found {e : Estate β ε ρ} {crew : List (Attended β ε ρ)} {workers : Nat} {name : String}
      {pool : Pool β ρ} (hpool : Pool.create? workers name = .ok pool) :
      Passes B e crew { e with plants := e.plants ++ [{ site := ⟨pool, e.env⟩ }] }
        (crew ++ [⟨{ site := ⟨pool, e.env⟩ }, fun _ => .ready⟩])
  | arrive {e : Estate β ε ρ} {crew : List (Attended β ε ρ)} {p : Nat} {x : Attended β ε ρ}
      (hget : crew[p]? = some x)
      (visit : Visit (Pool.Errand β) (Worksite β ε ρ) (Pool.Answer ρ)) :
      Passes B e crew
        { e with plants := e.plants.set p { x.plant with visits := x.plant.visits ++ [visit] } }
        (crew.set p ⟨{ x.plant with visits := x.plant.visits ++ [visit] },
          Function.update x.stands x.plant.visits.length visit.errand.start⟩)
  | call {e : Estate β ε ρ} {crew : List (Attended β ε ρ)} {p i : Nat} {x : Attended β ε ρ}
      {visit visit' : Visit (Pool.Errand β) (Worksite β ε ρ) (Pool.Answer ρ)}
      {site : Worksite β ε ρ} {errand : Pool.Errand β} {k₀ k : Pool.Standing ρ}
      (hget : crew[p]? = some x) (hvisit : x.plant.visits[i]? = some visit)
      (hstep : visit.Step (e.view x.plant).site visit' site)
      (hresumes : Resumes errand (x.stands i) k₀)
      (hmoves : Pool.Moves errand k₀ visit.thread (e.view x.plant).site.pool k visit'.thread
        site.pool)
      (hhas : ∀ queued ∈ x.plant.site.pool.grown site.pool, e.board.Has queued.audience) :
      Passes B e crew
        (e.update p (.client i)
          { (e.view x.plant).advance (.client i) site with
            visits := x.plant.visits.set i visit' })
        (crew.set p
          ⟨{ (e.view x.plant).advance (.client i) site with
              visits := x.plant.visits.set i visit' },
            Function.update x.stands i k⟩)
  | work {e : Estate β ε ρ} {crew : List (Attended β ε ρ)} {p i : Nat} {x : Attended β ε ρ}
      {choice : Choice} {site : Worksite β ε ρ} (hget : crew[p]? = some x)
      (hstep : Worksite.workerStep B choice i (e.view x.plant).site = some site)
      (hhas : ∀ queued ∈ x.plant.site.pool.grown site.pool, e.board.Has queued.audience) :
      Passes B e crew
        { e.update p (.worker i)
            (((e.view x.plant).advance (.worker i) site).record i (x.plant.site.pool.stage i)
              (site.pool.stage i)) with
          ends := e.ends ++ ((e.view x.plant).ending? B p i).toList }
        (crew.set p
          ⟨((e.view x.plant).advance (.worker i) site).record i (x.plant.site.pool.stage i)
              (site.pool.stage i),
            x.stands⟩)
  | rouse {e : Estate β ε ρ} {crew : List (Attended β ε ρ)} {p : Nat} {x : Attended β ε ρ}
      (hget : crew[p]? = some x) (i : Nat) :
      Passes B e crew
        { e with
          plants := e.plants.set p
            { x.plant with
              site.pool.workers := x.plant.site.pool.workers.modify i Worker.woken } }
        (crew.set p
          ⟨{ x.plant with
              site.pool.workers := x.plant.site.pool.workers.modify i Worker.woken },
            x.stands⟩)
  | others {e : Estate β ε ρ} {crew : List (Attended β ε ρ)} (env : ε) :
      Passes B e crew { e with env } crew

section Passes

variable {B : Body β ε ρ} {crew' : List (Attended β ε ρ)}

/-- Whatever calls and workers do is a passage at one of the plants, or has nothing to do with any
task. -/
theorem Passes.passage (hpasses : Passes B e crew e' crew') (h : Upheld e crew) :
    (∃ p x x' change endings, crew[p]? = some x ∧ crew' = crew.set p x' ∧
      Passage e p x e' x' change endings) ∨
    Upheld e' crew' ∧ e'.books crew' = e.books crew := by
  cases hpasses with
  | found hpool => exact .inr ⟨h.found hpool, books_found e crew hpool⟩
  | arrive hget visit => exact .inl ⟨_, _, _, _, _, hget, rfl, h.passage_arrive hget visit⟩
  | @call p i x visit visit' site errand k₀ k hget hvisit _ hresumes hmoves hhas =>
    have horderly := h.orderly x (List.mem_of_getElem? hget)
    obtain ⟨change, -, hpassage⟩ := h.passage_call hget (List.getElem?_eq_some_iff.1 hvisit).1
      hresumes.seat?_eq (fun hshut => horderly.hasShut i (hresumes.hasShut hshut)) hmoves hhas
      (.client i) visit'
    exact .inl ⟨_, _, _, _, _, hget, rfl, hpassage⟩
  | work hget hstep hhas =>
    obtain ⟨change, -, hpassage⟩ := h.passage_work hget hstep hhas
    exact .inl ⟨_, _, _, _, _, hget, rfl, hpassage⟩
  | rouse hget i => exact .inl ⟨_, _, _, _, _, hget, rfl, h.passage_rouse hget i⟩
  | others env => exact .inr ⟨h.others env, rfl⟩

/-- The books are kept, whatever calls and workers do. -/
theorem Upheld.step (h : Upheld e crew) (hpasses : Passes B e crew e' crew') :
    Upheld e' crew' := by
  obtain ⟨p, x, x', change, endings, hget, rfl, hpassage⟩ | ⟨hupheld, -⟩ := hpasses.passage h
  · exact h.passage hget hpassage
  · exact hupheld

/-- They change by deals. -/
theorem Passes.turn (hpasses : Passes B e crew e' crew') (h : Upheld e crew) :
    ∃ change, Books.Turn change (e.books crew) (e'.books crew') := by
  obtain ⟨p, x, x', change, endings, hget, rfl, hpassage⟩ | ⟨-, hbooks⟩ := hpasses.passage h
  · exact ⟨change, hpassage.turn hget⟩
  · refine ⟨{}, ?_⟩
    rw [hbooks]
    exact ⟨.still, fun _ => rfl, fun _ => Nat.zero_le _, fun _ => rfl, fun _ => Nat.zero_le _,
      fun _ => rfl, (List.append_nil _).symm⟩

end Passes

end Estate

end MarkSweep
