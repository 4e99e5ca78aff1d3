import MarkSweep.Proofs.Groups

namespace MarkSweep

variable {β ε ρ α : Type}

namespace Pool

/-- The errands of a call, the latest first, and how far it has come with each. -/
abbrev Diary (β ρ : Type) := List (Errand β × Standing ρ)

namespace Diary

/-- How far the call has come with the errand that it is on. -/
def standing : Diary β ρ → Standing ρ
  | [] => .ready
  | (_, k) :: _ => k

/-- The tasks that the call has queued, the earliest first. -/
def tasks : Diary β ρ → List (Task β)
  | [] => []
  | (errand, k) :: diary => tasks diary ++ errand.queued k

/-- What the next step of a call does to its diary, to its thread and to the pool: it goes on with
the errand that it is on, or it is done with it and begins another one. -/
inductive Writes : Diary β ρ → Thread → Pool β ρ → Diary β ρ → Thread → Pool β ρ → Prop
  | goesOn {diary : Diary β ρ} {errand : Errand β} {k k' : Standing ρ} {t t' : Thread}
      {pool pool' : Pool β ρ} (hmoves : Moves errand k t pool k' t' pool') :
      Writes ((errand, k) :: diary) t pool ((errand, k') :: diary) t' pool'
  | begins {diary : Diary β ρ} {errand : Errand β} {k' : Standing ρ} {t t' : Thread}
      {pool pool' : Pool β ρ} (hnone : diary.standing.seat? = none)
      (hmoves : Moves errand errand.start t pool k' t' pool') :
      Writes diary t pool ((errand, k') :: diary) t' pool'

end Diary

/-- A call does nothing but to go on errand after errand. -/
def roaming : Discipline (Diary β ρ) (Thread × Worksite β ε ρ) where
  relies _ _ := True
  prompt _ := False
  barred _ := True
  moves _ diary x diary' y := diary.Writes x.1 x.2.pool diary' y.1 y.2.pool

section Keeps

variable {errand : Errand β} {diary : Diary β ρ}

/-- A call goes on with its latest errand as that errand allows. -/
theorem keeps_goesOn {E : Standing ρ → Except Fault α → Prop}
    {p : Routine (Thread × Worksite β ε ρ) (Except Fault α)} {k : Standing ρ}
    (hp : p.Keeps (discipline errand) E k) :
    p.Keeps roaming (fun diary' result => ∃ k', diary' = (errand, k') :: diary ∧ E k' result)
      ((errand, k) :: diary) := by
  induction p generalizing k with
  | done result => exact ⟨k, rfl, hp⟩
  | step act next ih =>
    refine ⟨False.elim, fun choice s b s' _ hact => ?_⟩
    obtain ⟨k', ⟨-, hmoves⟩, hnext⟩ := hp.2 choice s b s' trivial hact
    exact ⟨_, .goesOn hmoves, ih b hnext⟩

/-- After other errands a call makes a call on the next one, and goes on from there. -/
theorem keeps_bind_errand {γ : Type} {E : Diary β ρ → Except Fault α → Prop} {w : γ → Answer ρ}
    {call : Call (Worksite β ε ρ) γ} {f : γ → Call (Worksite β ε ρ) α}
    (hcall : Call.Keeps (discipline errand) (fun k result => Ends errand k (result.map w)) call
      errand.start)
    (hnone : diary.standing.seat? = none)
    (hthen : ∀ k b, Ends errand k (.ok (w b)) →
      Call.Keeps roaming E (f b) ((errand, k) :: diary))
    (hone : errand ≠ .series) (hanswers : ∀ id, errand ≠ .join id) :
    Call.Keeps roaming E (call >>= f) diary := by
  refine Call.keeps_bind (R := fun diary' result =>
    ∃ k, diary' = (errand, k) :: diary ∧ Ends errand k (result.map w)) ?_ ?_ ?_
  · cases call with
    | done result =>
      -- No errand but a series is done before its first step.
      have hends : Ends errand errand.start (result.map w) := hcall
      generalize result.map w = answer at hends
      cases errand with
      | series => exact absurd rfl hone
      | _ => cases hends
    | step act next =>
      refine ⟨False.elim, fun choice s b s' _ hact => ?_⟩
      obtain ⟨k', ⟨-, hmoves⟩, hnext⟩ := hcall.2 choice s b s' trivial hact
      exact ⟨_, .begins hnone hmoves, keeps_goesOn hnext⟩
  · rintro _ b ⟨k, rfl, hends⟩
    exact hthen k b hends
  · rintro _ fault ⟨k, rfl, hends⟩
    -- Only whoever joins a handle may fault.
    cases hends with
    | joinedFault => exact absurd rfl (hanswers _)
    | joinedLost => exact absurd rfl (hanswers _)

end Keeps

/-- The next step is one that the standing allows. -/
theorem Diary.Writes.exists_moves {diary diary' : Diary β ρ} {t t' : Thread} {pool pool' : Pool β ρ}
    (hwrites : diary.Writes t pool diary' t' pool') :
    ∃ errand k, Estate.Resumes errand diary.standing k ∧
      Moves errand k t pool diary'.standing t' pool' := by
  cases hwrites with
  | goesOn hmoves => exact ⟨_, _, .goesOn, hmoves⟩
  | begins hnone hmoves => exact ⟨_, _, .begins hnone, hmoves⟩

/-- What is queued was written down. -/
theorem Diary.Writes.tasks_eq {diary diary' : Diary β ρ} {t t' : Thread} {pool pool' : Pool β ρ}
    (hwrites : diary.Writes t pool diary' t' pool') :
    diary'.tasks = diary.tasks ++ pool.grown pool' := by
  cases hwrites with
  | @goesOn diary errand k k' _ _ _ _ hmoves =>
    obtain ⟨added, htraffic, hqueued⟩ := hmoves.traffic
    rw [htraffic.grown_eq, tasks, tasks, hqueued, List.append_assoc]
  | @begins _ errand k' _ _ _ _ _ hmoves =>
    obtain ⟨added, htraffic, hqueued⟩ := hmoves.traffic
    have hstart : errand.queued (errand.start : Standing ρ) = [] := by cases errand <;> rfl
    rw [htraffic.grown_eq, tasks, hqueued, hstart, List.nil_append]

/-- A pool that some errand has shut down or found shut down stays so. -/
theorem Diary.Writes.hasShut {diary diary' : Diary β ρ} {t t' : Thread} {pool pool' : Pool β ρ}
    (hwrites : diary.Writes t pool diary' t' pool')
    (hshut : ∀ entry ∈ diary, entry.2.HasShut → pool.shutDown = true) :
    ∀ entry ∈ diary', entry.2.HasShut → pool'.shutDown = true := by
  cases hwrites with
  | goesOn hmoves =>
    rw [List.forall_mem_cons] at hshut ⊢
    exact ⟨hmoves.hasShut hshut.1, fun entry hmem hentry =>
      hmoves.tended.shutDown (hshut.2 entry hmem hentry)⟩
  | @begins _ errand _ _ _ _ _ _ hmoves =>
    rw [List.forall_mem_cons]
    refine ⟨hmoves.hasShut fun hstart => ?_, fun entry hmem hentry =>
      hmoves.tended.shutDown (hshut entry hmem hentry)⟩
    cases errand with
    | finalize => exact absurd rfl hstart
    | _ => exact hstart.elim

end Pool

namespace Estate

variable {B : Body β ε ρ} {e e' : Estate β ε ρ} {crew crew' : List (Attended β ε ρ)}
  {p i made : Nat} {diary diary' : Pool.Diary β ρ}

/-- What a call has heard from handles and groups is true, and it has made its groups after `made`
others. -/
structure Learned (e : Estate β ε ρ) (made : Nat) (diary : Pool.Diary β ρ) : Prop where
  since : made ≤ e.board.nextGroup
  fresh : ∀ g, (.newGroup, .grouped g) ∈ diary → made ≤ g
  heard : ∀ errand outcome?, (errand, .heard outcome?) ∈ diary → ∀ id,
    errand = .tryJoin id ∨ errand = .join id → e.Fate id outcome?
  told : ∀ g answer, (.waitGroup g, .told answer) ∈ diary →
    ∃ faults, e.Retired g faults ∧ answer = verdict faults

/-- What was heard stays true. -/
theorem Learned.step (h : e.Learned made diary) (hupheld : Upheld e crew)
    (hpasses : Passes B e crew e' crew') : e'.Learned made diary := by
  obtain ⟨change, hturn⟩ := hpasses.turn hupheld
  refine ⟨h.since.trans hturn.deal.next_le.2, h.fresh, fun errand outcome? hmem id herrand => ?_,
    fun g answer hmem => ?_⟩
  · exact (h.heard errand outcome? hmem id herrand).step hupheld hpasses
  · exact (h.told g answer hmem).imp fun _ => And.imp_left (·.step hupheld hpasses)

/-- What is true of the head of a diary and of the rest is true of the whole. -/
theorem Learned.cons {errand : Pool.Errand β} {k : Pool.Standing ρ} (h : e.Learned made diary)
    (hhead : e.Learned made [(errand, k)]) : e.Learned made ((errand, k) :: diary) := by
  refine ⟨h.since, fun g hmem => ?_, fun other outcome? hmem => ?_, fun g answer hmem => ?_⟩
  · obtain heq | hmem := List.mem_cons.1 hmem
    · exact hhead.fresh g (heq ▸ List.mem_singleton_self _)
    · exact h.fresh g hmem
  · obtain heq | hmem := List.mem_cons.1 hmem
    · exact hhead.heard other outcome? (heq ▸ List.mem_singleton_self _)
    · exact h.heard other outcome? hmem
  · obtain heq | hmem := List.mem_cons.1 hmem
    · exact hhead.told g answer (heq ▸ List.mem_singleton_self _)
    · exact h.told g answer hmem

theorem Learned.tail {entry : Pool.Errand β × Pool.Standing ρ}
    (h : e.Learned made (entry :: diary)) : e.Learned made diary :=
  ⟨h.since, fun g hmem => h.fresh g (List.mem_cons_of_mem _ hmem),
    fun errand outcome? hmem => h.heard errand outcome? (List.mem_cons_of_mem _ hmem),
    fun g answer hmem => h.told g answer (List.mem_cons_of_mem _ hmem)⟩

/-- What a call hears in its next step is true. -/
theorem Upheld.learned (h : Upheld e crew) (hhomed : Homed e crew)
    (hsince : made ≤ e.board.nextGroup)
    (hpasses : Passes B e crew e' crew') {errand : Pool.Errand β} {k k' : Pool.Standing ρ}
    {t t' : Thread} {pool pool' : Pool β ρ} (hmoves : Pool.Moves errand k t pool k' t' pool')
    (hbefore : pool.board = e.board) (hafter : e'.board = pool'.board) :
    e'.Learned made [(errand, k')] := by
  obtain ⟨change, hturn⟩ := hpasses.turn h
  refine ⟨hsince.trans hturn.deal.next_le.2, fun g hmem => ?fresh,
    fun other outcome? hmem id herrand => ?heard, fun g answer hmem => ?told⟩
  case fresh =>
    obtain ⟨rfl, hk⟩ := Prod.mk.inj (List.mem_singleton.1 hmem)
    cases hmoves with
    | openGroup =>
      cases hk
      exact hbefore ▸ hsince
    | accept => split at hk <;> cases hk
    | _ => cases hk
  case heard =>
    obtain ⟨rfl, hk⟩ := Prod.mk.inj (List.mem_singleton.1 hmem)
    suffices hfate : e.Fate id outcome? from hfate.step h hpasses
    have hsame : ∀ {id'}, other = .tryJoin id' ∨ other = .join id' → id' = id := by
      rintro id' (rfl | rfl) <;> obtain heq | heq := herrand <;> cases heq <;> rfl
    cases hmoves with
    | hearDelivered hjoins hget =>
      cases hk
      obtain rfl := hsame hjoins
      exact h.ran_of_delivered (hbefore ▸ hget)
    | hearLost hjoins hget =>
      cases hk
      obtain rfl := hsame hjoins
      exact h.unrun_of_lost hhomed (hbefore ▸ hget)
    | accept => split at hk <;> cases hk
    | _ => cases hk
  case told =>
    obtain ⟨rfl, hk⟩ := Prod.mk.inj (List.mem_singleton.1 hmem)
    cases hmoves with
    | @waitGroup _ _ _ group herrand hget hempty =>
      cases herrand
      cases hk
      refine ⟨group.faults, h.retired hpasses (hbefore ▸ hget) hempty ?_, group.answer_eq⟩
      rw [hafter, hbefore]
    | accept => split at hk <;> cases hk
    | _ => cases hk

/-- So is what it has written in its diary afterwards. -/
theorem Learned.writes (hlearned : e.Learned made diary) (h : Upheld e crew)
    (hhomed : Homed e crew) (hpasses : Passes B e crew e' crew') {t t' : Thread}
    {pool pool' : Pool β ρ}
    (hwrites : diary.Writes t pool diary' t' pool') (hbefore : pool.board = e.board)
    (hafter : e'.board = pool'.board) : e'.Learned made diary' := by
  have hkept := hlearned.step h hpasses
  cases hwrites with
  | goesOn hmoves =>
    exact hkept.tail.cons (h.learned hhomed hlearned.since hpasses hmoves hbefore hafter)
  | begins _ hmoves =>
    exact hkept.cons (h.learned hhomed hlearned.since hpasses hmoves hbefore hafter)

/-- A call on a plant keeps its diary, which notes every task that was accepted from the call and
that the pool is shut down if it is known to be, and it ends only where `Q` allows it. -/
structure Attended.Keeps (Q : Pool.Diary β ρ → Except Fault (Pool.Answer ρ) → Prop)
    (x : Attended β ε ρ) (i : Nat) (diary : Pool.Diary β ρ) : Prop where
  stands : x.stands i = diary.standing
  tasks : x.plant.acceptedFrom (.client i) = diary.tasks
  shut : ∀ entry ∈ diary, entry.2.HasShut → x.plant.site.pool.shutDown = true
  visit : ∃ visit, x.plant.visits[i]? = some visit ∧ visit.rest.Keeps Pool.roaming Q diary

/-- One call, made when there were `made` groups already, goes on errand after errand and has
written the truth in its diary, and all others are those of errands. -/
structure Roams (made : Nat) (Q : Pool.Diary β ρ → Except Fault (Pool.Answer ρ) → Prop)
    (e : Estate β ε ρ) (crew : List (Attended β ε ρ)) (p i : Nat) (diary : Pool.Diary β ρ) :
    Prop where
  upheld : Upheld e crew
  homed : Homed e crew
  others : ∀ (q : Nat) y, crew[q]? = some y → ∀ (j : Nat) visit, y.plant.visits[j]? = some visit →
    ¬(q = p ∧ j = i) →
      visit.rest.Keeps (Pool.discipline visit.errand) (Pool.Ends visit.errand) (y.stands j)
  own : ∃ x, crew[p]? = some x ∧ x.Keeps Q i diary
  learned : e.Learned made diary

section Roams

variable {Q : Pool.Diary β ρ → Except Fault (Pool.Answer ρ) → Prop} {q : Nat}
  {x x' y y' : Attended β ε ρ}

/-- Steps of others leave a call with what it has written. -/
theorem Attended.Keeps.of_eq (h : x.Keeps Q i diary) (hstands : x'.stands i = x.stands i)
    (hvisit : x'.plant.visits[i]? = x.plant.visits[i]?)
    (htasks : x'.plant.acceptedFrom (.client i) = x.plant.acceptedFrom (.client i))
    (hfollows : x.plant.Follows x'.plant) : x'.Keeps Q i diary :=
  ⟨hstands.trans h.stands, htasks.trans h.tasks,
    fun entry hmem hshut => (hfollows.shutDown (h.shut entry hmem hshut)).1, hvisit ▸ h.visit⟩

/-- Something happens at one of the plants. -/
theorem Roams.set (h : Roams made Q e crew p i diary)
    (hpasses : Passes B e crew e' (crew.set q y')) (hget : crew[q]? = some y)
    (hlearned : e'.Learned made diary')
    (hothers : ∀ (j : Nat) visit, y'.plant.visits[j]? = some visit → ¬(q = p ∧ j = i) →
      visit.rest.Keeps (Pool.discipline visit.errand) (Pool.Ends visit.errand) (y'.stands j))
    (hown : q = p → y.Keeps Q i diary → y'.Keeps Q i diary') (hsame : q ≠ p → diary' = diary) :
    Roams made Q e' (crew.set q y') p i diary' := by
  have hlt := (List.getElem?_eq_some_iff.1 hget).1
  refine ⟨h.upheld.step hpasses, h.homed.step h.upheld hpasses, ?others, ?own, hlearned⟩
  case others =>
    intro q' z hz
    obtain ⟨rfl, rfl⟩ | ⟨-, hz⟩ := getElem?_set_cases hz
    · exact hothers
    · exact h.others q' z hz
  case own =>
    obtain ⟨x, hx, hkeeps⟩ := h.own
    by_cases hq : q = p
    · subst hq
      rw [hget] at hx
      cases hx
      exact ⟨y', List.getElem?_set_self hlt, hown rfl hkeeps⟩
    · rw [hsame hq]
      exact ⟨x, (List.getElem?_set_ne hq).trans hx, hkeeps⟩

/-- The call takes a step and writes it in its diary. -/
theorem Roams.call_own (B : Body β ε ρ) (h : Roams made Q e crew p i diary)
    (hget : crew[p]? = some x)
    {visit visit' : Visit (Pool.Errand β) (Worksite β ε ρ) (Pool.Answer ρ)}
    {site : Worksite β ε ρ} (hvisit : x.plant.visits[i]? = some visit)
    (hstep : visit.Step (e.view x.plant).site visit' site)
    (hhas : ∀ queued ∈ x.plant.site.pool.grown site.pool, e.board.Has queued.audience) :
    ∃ crew' diary', Roams made Q
      (e.update p (.client i)
        { (e.view x.plant).advance (.client i) site with visits := x.plant.visits.set i visit' })
      crew' p i diary' := by
  obtain ⟨y, hy, hkeeps⟩ := h.own
  rw [hget] at hy
  cases hy
  obtain ⟨other, hother, hrest⟩ := hkeeps.visit
  obtain rfl := Option.some.inj (hother.symm.trans hvisit)
  obtain ⟨diary', hwrites, hrest'⟩ := hstep.keeps hrest trivial
  obtain ⟨errand, k, hresumes, hmoves⟩ := hwrites.exists_moves
  rw [← hkeeps.stands] at hresumes
  have hpasses : Passes B e crew _ _ := .call hget hvisit hstep hresumes hmoves hhas
  refine ⟨_, diary', h.set hpasses hget ?_ ?_ ?_ fun hne => absurd rfl hne⟩
  · exact h.learned.writes h.upheld h.homed hpasses hwrites rfl rfl
  · intro j visit'' hj hne
    obtain ⟨rfl, -⟩ | ⟨hji, hj⟩ := getElem?_set_cases hj
    · exact absurd ⟨rfl, rfl⟩ hne
    · dsimp only
      rw [Function.update_of_ne (Ne.symm hji)]
      exact h.others p x hget j visit'' hj hne
  · intro _ _
    refine ⟨Function.update_self _ _ _, ?_, hwrites.hasShut hkeeps.shut, visit', ?_, hrest'⟩
    · refine (Plant.acceptedFrom_advance (e.view x.plant) (.client i) (.client i) site).trans ?_
      rw [if_pos rfl, hwrites.tasks_eq, ← hkeeps.tasks]
      rfl
    · exact List.getElem?_set_self (List.getElem?_eq_some_iff.1 hvisit).1

/-- Another call takes a step. -/
theorem Roams.call_other (B : Body β ε ρ) (h : Roams made Q e crew p i diary)
    (hget : crew[q]? = some y) {j : Nat}
    {visit visit' : Visit (Pool.Errand β) (Worksite β ε ρ) (Pool.Answer ρ)}
    {site : Worksite β ε ρ} (hvisit : y.plant.visits[j]? = some visit)
    (hstep : visit.Step (e.view y.plant).site visit' site)
    (hhas : ∀ queued ∈ y.plant.site.pool.grown site.pool, e.board.Has queued.audience)
    (hne : ¬(q = p ∧ j = i)) :
    ∃ crew', Roams made Q
      (e.update q (.client j)
        { (e.view y.plant).advance (.client j) site with visits := y.plant.visits.set j visit' })
      crew' p i diary := by
  obtain ⟨k, ⟨-, hmoves⟩, hrest⟩ := hstep.keeps (h.others q y hget j visit hvisit hne) trivial
  have hpasses : Passes B e crew _ _ := .call hget hvisit hstep .goesOn hmoves hhas
  refine ⟨_, h.set hpasses hget (h.learned.step h.upheld hpasses) ?_ ?_ fun _ => rfl⟩
  · intro l other hl hnel
    obtain ⟨rfl, rfl⟩ | ⟨hlj, hl⟩ := getElem?_set_cases hl
    · dsimp only
      rw [Function.update_self, hstep.errand_eq.1]
      exact hrest
    · dsimp only
      rw [Function.update_of_ne (Ne.symm hlj)]
      exact h.others q y hget l other hl hnel
  · intro hq hkeeps
    have hij : i ≠ j := fun heq => hne ⟨hq, heq.symm⟩
    refine hkeeps.of_eq (Function.update_of_ne hij _ _) (List.getElem?_set_ne (Ne.symm hij)) ?_
      (follows_call hmoves (.client j) _)
    refine (Plant.acceptedFrom_advance (e.view y.plant) (.client j) (.client i) site).trans ?_
    rw [if_neg fun heq => hij (Origin.client.inj heq).symm, List.append_nil]
    rfl

/-- Whatever happens, the call goes on errand after errand. -/
theorem Roams.step (h : Roams made Q e crew p i diary) (hstep : Step B e e') :
    ∃ crew' diary', Roams made Q e' crew' p i diary' := by
  cases hstep with
  | @found workers name pool hpool =>
    have hpasses : Passes B e crew _ _ := .found hpool
    refine ⟨crew ++ [⟨{ site := ⟨pool, e.env⟩ }, fun _ => .ready⟩], diary, h.upheld.step hpasses,
      h.homed.step h.upheld hpasses, ?keep, ?own, h.learned.step h.upheld hpasses⟩
    case keep =>
      intro q y hy j visit hvisit hne
      obtain ⟨-, rfl⟩ | ⟨-, hy⟩ := getElem?_concat_cases hy
      · cases hvisit
      · exact h.others q y hy j visit hvisit hne
    case own =>
      obtain ⟨x, hx, hkeeps⟩ := h.own
      exact ⟨x, (List.getElem?_append_left (List.getElem?_eq_some_iff.1 hx).1).trans hx, hkeeps⟩
  | arrive hplant errand caller =>
    obtain ⟨y, hy, rfl⟩ := h.upheld.exists_attended hplant
    have hpasses : Passes B e crew _ _ := .arrive hy ⟨errand, caller, caller, errand.call⟩
    refine ⟨_, diary, h.set hpasses hy (h.learned.step h.upheld hpasses) ?_ ?_ fun _ => rfl⟩
    · intro j visit hj hne
      obtain ⟨rfl, rfl⟩ | ⟨hj', hvisit⟩ := getElem?_concat_cases hj
      · dsimp only
        rw [Function.update_self]
        exact Pool.keeps_call errand
      · dsimp only
        rw [Function.update_of_ne hj']
        exact h.others _ y hy j visit hvisit hne
    · intro _ hkeeps
      obtain ⟨visit, hvisit, -⟩ := hkeeps.visit
      have hi := (List.getElem?_eq_some_iff.1 hvisit).1
      exact hkeeps.of_eq (Function.update_of_ne (Nat.ne_of_lt hi) _ _)
        (List.getElem?_append_left hi) rfl (follows_arrive _ _)
  | @call q j _ visit visit' site hplant hvisit hstep hhas =>
    obtain ⟨y, hy, rfl⟩ := h.upheld.exists_attended hplant
    by_cases hown : q = p ∧ j = i
    · obtain ⟨rfl, rfl⟩ := hown
      exact h.call_own B hy hvisit hstep hhas
    · obtain ⟨crew', hroams⟩ := h.call_other B hy hvisit hstep hhas hown
      exact ⟨crew', diary, hroams⟩
  | @work q j _ choice site hplant hstep hhas =>
    obtain ⟨y, hy, rfl⟩ := h.upheld.exists_attended hplant
    have hpasses : Passes B e crew _ _ := .work hy hstep hhas
    obtain ⟨-, hvisits, haccepted, -⟩ :=
      Plant.record_eq ((e.view y.plant).advance (.worker j) site) j (y.plant.site.pool.stage j)
        (site.pool.stage j)
    refine ⟨_, diary, h.set hpasses hy (h.learned.step h.upheld hpasses) ?_ ?_ fun _ => rfl⟩
    · intro l visit hl hne
      exact h.others q y hy l visit (hvisits ▸ hl) hne
    · intro _ hkeeps
      refine hkeeps.of_eq rfl (congrArg (fun visits => visits[i]?) hvisits) ?_
        (follows_work hstep)
      rw [Plant.acceptedFrom, haccepted]
      refine (Plant.acceptedFrom_advance (e.view y.plant) (.worker j) (.client i) site).trans ?_
      exact List.append_nil _
  | rouse hplant j =>
    obtain ⟨y, hy, rfl⟩ := h.upheld.exists_attended hplant
    have hpasses : Passes B e crew _ _ := .rouse hy j
    refine ⟨_, diary, h.set hpasses hy (h.learned.step h.upheld hpasses) ?_ ?_ fun _ => rfl⟩
    · exact fun l visit hl hne => h.others _ y hy l visit hl hne
    · exact fun _ hkeeps => hkeeps.of_eq rfl rfl rfl (follows_rouse _ j)
  | others env =>
    have hpasses : Passes B e crew _ _ := .others env
    exact ⟨crew, diary, h.upheld.step hpasses, h.homed.step h.upheld hpasses, h.others, h.own,
      h.learned.step h.upheld hpasses⟩

/-- Throughout a run, what a call has written in its diary is true. -/
theorem Roams.run (h : Roams made Q e crew p i diary)
    (hrun : Relation.ReflTransGen (Step B) e e') :
    ∃ crew' diary', Roams made Q e' crew' p i diary' := by
  induction hrun with
  | refl => exact ⟨crew, diary, h⟩
  | tail _ hstep ih =>
    obtain ⟨crew', diary', hroams⟩ := ih
    exact hroams.step hstep

/-- The call is one on plant `c`, if that is the plant of this number. -/
theorem Roams.exists_keeps (h : Roams made Q e crew p i diary) {c : Plant β ε ρ}
    (hplant : e.plants[p]? = some c) : ∃ x : Attended β ε ρ, x.plant = c ∧ x.Keeps Q i diary := by
  obtain ⟨x, hx, hkeeps⟩ := h.own
  exact ⟨x, Option.some.inj ((h.upheld.getElem?_plants hx).symm.trans hplant), hkeeps⟩

/-- A call that has ended has ended where `Q` allows it. -/
theorem Roams.ends (h : Roams made Q e crew p i diary)
    {visit : Visit (Pool.Errand β) (Worksite β ε ρ) (Pool.Answer ρ)}
    {result : Except Fault (Pool.Answer ρ)} (hget : e.visit? p i = some visit)
    (hanswer : visit.answer? = some result) : Q diary result := by
  obtain ⟨x, hx, hkeeps⟩ := h.own
  obtain ⟨other, hother, hrest⟩ := hkeeps.visit
  rw [visit?_eq (h.upheld.getElem?_plants hx), hother] at hget
  cases hget
  exact Visit.ends_of_answer? hrest hanswer

/-- A call is made on a pool. -/
def receive (e : Estate β ε ρ) (p : Nat)
    (visit : Visit (Pool.Errand β) (Worksite β ε ρ) (Pool.Answer ρ)) : Estate β ε ρ :=
  { e with plants := e.plants.modify p fun c => { c with visits := c.visits ++ [visit] } }

theorem receive_eq {c : Plant β ε ρ} (hplant : e.plants[p]? = some c)
    (visit : Visit (Pool.Errand β) (Worksite β ε ρ) (Pool.Answer ρ)) : e.receive p visit =
      { e with plants := e.plants.set p { c with visits := c.visits ++ [visit] } } := by
  rw [receive, List.modify_eq_set_getElem?, hplant]
  rfl

/-- A call begins to go on errand after errand, wherever the others are. -/
theorem Custody.receive (h : Custody B e crew) {c : Plant β ε ρ} (hplant : e.plants[p]? = some c)
    {visit : Visit (Pool.Errand β) (Worksite β ε ρ) (Pool.Answer ρ)}
    (hready : (visit.errand.start : Pool.Standing ρ) = .ready)
    (hkeeps : visit.rest.Keeps Pool.roaming Q []) :
    ∃ crew', Roams e.board.nextGroup Q (e.receive p visit) crew' p c.visits.length [] := by
  rw [receive_eq hplant]
  obtain ⟨x, hx, rfl⟩ := h.upheld.exists_attended hplant
  have hlt := (List.getElem?_eq_some_iff.1 hx).1
  have hmem := List.mem_of_getElem? hx
  have hpasses : Passes B e crew _ _ := .arrive hx visit
  refine ⟨_, h.upheld.step hpasses, h.homed.step h.upheld hpasses, ?others, ?own, Nat.le_refl _,
    nofun, nofun, nofun⟩
  case others =>
    intro q y hy j other hother hne
    obtain ⟨rfl, rfl⟩ | ⟨-, hy⟩ := getElem?_set_cases hy
    · obtain ⟨hj, -⟩ | ⟨hj, hother⟩ := getElem?_concat_cases hother
      · exact absurd ⟨rfl, hj⟩ hne
      · dsimp only
        rw [Function.update_of_ne hj]
        exact h.disciplined x hmem j other hother
    · exact h.disciplined y (List.mem_of_getElem? hy) j other hother
  case own =>
    refine ⟨_, List.getElem?_set_self hlt, (Function.update_self _ _ _).trans hready, ?_, nofun,
      visit, List.getElem?_concat_length, hkeeps⟩
    exact (h.ordered x hmem).strangers _ (Nat.le_refl _)

end Roams

end Estate

end MarkSweep
