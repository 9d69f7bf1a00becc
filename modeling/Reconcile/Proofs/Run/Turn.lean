import Mathlib.Data.List.Find
import Reconcile.Proofs.Collection
import Reconcile.Proofs.Plan
import Reconcile.Proofs.Run.Exchange
/-!
A run as the turns of its changes, one after another.  Main statements: `runLevels_eq_runInOrder`,
levels make no difference where no change depends on one of its own level, and `exists_turns`, every
change has its turn.
-/

namespace Reconcile
namespace Run

variable {σ : Type}

/-- The turn of one change in a run. -/
structure Turn (σ : Type) where
  change : Change
  before : Progress σ
  said : List Exchange
  outcome : Outcome
  after : Progress σ

def Chained (p : Progress σ) : List (Turn σ) → Progress σ → Prop
  | [], q => p = q
  | t :: rest, q => t.before = p ∧ Chained t.after rest q

/-- What happens in the turn of a change, given which of the others are known to have stopped. -/
inductive Taken (transport : Transport σ) (options : Options) (stopped : Urn → Bool) :
    Turn σ → Prop
  | rejected {c : Change} {p : Progress σ} {text : String} (hrejection : c.rejection = some text) :
      Taken transport options stopped ⟨c, p, [], c.outcome (.failed text), p⟩
  | skipped {c : Change} {p : Progress σ} {d : Urn} (hrejection : c.rejection = none)
      (hstopped : c.dependsOn.find? stopped = some d) :
      Taken transport options stopped
        ⟨c, p, [], c.outcome (.skipped s!"dependency {d} did not apply"), p⟩
  | idle {c : Change} {p : Progress σ} (hrejection : c.rejection = none)
      (hstopped : c.dependsOn.find? stopped = none) (hnoop : c.action = .noop) :
      Taken transport options stopped ⟨c, p, [], c.outcome .applied, p⟩
  | carried {c : Change} {p q : Progress σ} {said : List Exchange}
      {fault : Option ExecutionFault} (hrejection : c.rejection = none)
      (hstopped : c.dependsOn.find? stopped = none) (hnoop : c.action ≠ .noop)
      (htalk : Talk transport options c.urn p said q)
      (hanswered : Answered (needed options c.session p.session c.statements) said fault)
      (accepted : List Executed) :
      Taken transport options stopped
        ⟨c, p, said, { c.outcome (statusOf c.urn fault) with statements := accepted }, q⟩

section

variable {transport : Transport σ} {options : Options} {stopped : Urn → Bool}

theorem Taken.urn {t : Turn σ} (h : Taken transport options stopped t) :
    t.outcome.urn = t.change.urn := by
  cases h with
  | _ => rfl

/-- A turn depends only on which of the change's own dependencies stopped. -/
theorem Taken.congr {t : Turn σ} (h : Taken transport options stopped t) {stopped' : Urn → Bool}
    (hcongr : ∀ d ∈ t.change.dependsOn, stopped d = stopped' d) :
    Taken transport options stopped' t := by
  have hfind := List.find?_congr hcongr
  cases h with
  | rejected hrejection => exact .rejected hrejection
  | skipped hrejection hstopped => exact .skipped hrejection (hfind ▸ hstopped)
  | idle hrejection hstopped hnoop => exact .idle hrejection (hfind ▸ hstopped) hnoop
  | carried hrejection hstopped hnoop htalk hanswered accepted =>
    exact .carried hrejection (hfind ▸ hstopped) hnoop htalk hanswered accepted

theorem Taken.talk {t : Turn σ} (h : Taken transport options stopped t) :
    Talk transport options t.change.urn t.before t.said t.after := by
  cases h with
  | rejected => exact .silent
  | skipped => exact .silent
  | idle => exact .silent
  | carried _ _ _ htalk => exact htalk

theorem Taken.failed_of_rejection {t : Turn σ} (h : Taken transport options stopped t)
    {text : String} (htext : t.change.rejection = some text) :
    t.outcome.status = .failed text := by
  cases h with
  | rejected hrejection =>
    obtain rfl := Option.some.inj (hrejection.symm.trans htext)
    rfl
  | skipped hrejection => cases hrejection.symm.trans htext
  | idle hrejection => cases hrejection.symm.trans htext
  | carried hrejection => cases hrejection.symm.trans htext

theorem statusOf_ne_skipped (u : Urn) (fault : Option ExecutionFault) (reason : String) :
    statusOf u fault ≠ .skipped reason := by
  cases fault with
  | _ => exact Status.noConfusion

theorem statusOf_eq_applied_iff {u : Urn} {fault : Option ExecutionFault} :
    statusOf u fault = .applied ↔ fault = none := by
  cases fault with
  | _ => simp [statusOf]

theorem Taken.exists_of_skipped {t : Turn σ} (h : Taken transport options stopped t)
    {reason : String} (hstatus : t.outcome.status = .skipped reason) :
    ∃ d, t.change.rejection = none ∧ t.change.dependsOn.find? stopped = some d ∧
      reason = s!"dependency {d} did not apply" := by
  cases h with
  | rejected => cases hstatus
  | skipped hrejection hstopped =>
    exact ⟨_, hrejection, hstopped, (Status.skipped.inj hstatus).symm⟩
  | idle => cases hstatus
  | carried => exact absurd hstatus (statusOf_ne_skipped _ _ _)

theorem Taken.skipped_of_find? {t : Turn σ} (h : Taken transport options stopped t) {d : Urn}
    (hrejection : t.change.rejection = none)
    (hfind : t.change.dependsOn.find? stopped = some d) :
    t.outcome.status = .skipped s!"dependency {d} did not apply" := by
  cases h with
  | rejected htext => cases hrejection.symm.trans htext
  | skipped _ hstopped =>
    obtain rfl := Option.some.inj (hstopped.symm.trans hfind)
    rfl
  | idle _ hstopped => cases hstopped.symm.trans hfind
  | carried _ hstopped => cases hstopped.symm.trans hfind

theorem Taken.find?_of_applied {t : Turn σ} (h : Taken transport options stopped t)
    (hstatus : t.outcome.status = .applied) : t.change.dependsOn.find? stopped = none := by
  cases h with
  | rejected => cases hstatus
  | skipped => cases hstatus
  | idle _ hstopped => exact hstopped
  | carried _ hstopped => exact hstopped

theorem Taken.silent {t : Turn σ} (h : Taken transport options stopped t)
    (hidle : t.change.rejection ≠ none ∨ (∃ reason, t.outcome.status = .skipped reason) ∨
      t.change.action = .noop) : t.said = [] ∧ t.after = t.before := by
  cases h with
  | rejected => exact ⟨rfl, rfl⟩
  | skipped => exact ⟨rfl, rfl⟩
  | idle => exact ⟨rfl, rfl⟩
  | carried hrejection _ hnoop =>
    rcases hidle with hidle | ⟨reason, hidle⟩ | hidle
    · exact absurd hrejection hidle
    · exact absurd hidle (statusOf_ne_skipped _ _ _)
    · exact absurd hidle hnoop

theorem Taken.find?_of_said {t : Turn σ} (h : Taken transport options stopped t)
    (hsaid : t.said ≠ []) : t.change.dependsOn.find? stopped = none := by
  cases h with
  | rejected => exact absurd rfl hsaid
  | skipped => exact absurd rfl hsaid
  | idle _ hstopped => exact hstopped
  | carried _ hstopped => exact hstopped

theorem Taken.applied_iff {t : Turn σ} (h : Taken transport options stopped t)
    (hrejection : t.change.rejection = none)
    (hfind : t.change.dependsOn.find? stopped = none) :
    t.outcome.status = .applied ↔ t.change.action = .noop ∨
      t.said = allAccepted (needed options t.change.session t.before.session
        t.change.statements) := by
  cases h with
  | rejected htext => cases hrejection.symm.trans htext
  | skipped _ hstopped => cases hfind.symm.trans hstopped
  | idle _ _ hnoop => exact iff_of_true rfl (.inl hnoop)
  | carried _ _ hnoop _ hanswered =>
    rw [or_iff_right hnoop]
    exact statusOf_eq_applied_iff.trans hanswered.fault_eq_none_iff

theorem Taken.exists_refused {t : Turn σ} (h : Taken transport options stopped t)
    (hrejection : t.change.rejection = none)
    (hfind : t.change.dependsOn.find? stopped = none)
    (hstatus : t.outcome.status ≠ .applied) :
    ∃ sent c e unsent, t.said = allAccepted sent ++ [(c, .error e)] ∧
      needed options t.change.session t.before.session t.change.statements =
        sent ++ c :: unsent ∧
      t.outcome.status =
        .failed (Error.execution t.change.urn (.refused c.sql e)).message := by
  cases h with
  | rejected htext => cases hrejection.symm.trans htext
  | skipped _ hstopped => cases hfind.symm.trans hstopped
  | idle => exact absurd rfl hstatus
  | @carried c p q said fault _ _ _ _ hanswered accepted =>
    show ∃ sent d e unsent, said = allAccepted sent ++ [(d, .error e)] ∧
      needed options c.session p.session c.statements = sent ++ d :: unsent ∧
      statusOf c.urn fault = .failed (Error.execution c.urn (.refused d.sql e)).message
    generalize needed options c.session p.session c.statements = commands at hanswered ⊢
    cases hanswered with
    | accepted => exact absurd rfl hstatus
    | refused sent unsent d e => exact ⟨sent, d, e, unsent, rfl, rfl, rfl⟩

theorem exists_turn (transport : Transport σ) (options : Options)
    (ended : SortedMap Urn Status) (c : Change) (p : Progress σ) :
    ∃ t : Turn σ, t.change = c ∧ t.before = p ∧
      runChange transport options ended c p = (t.outcome, t.after) ∧
      Taken transport options (isBlocked ended) t := by
  cases hrejection : c.rejection with
  | some text =>
    refine ⟨_, rfl, rfl, ?_, .rejected hrejection⟩
    simp only [runChange, hrejection]
  | none =>
    cases hstopped : c.dependsOn.find? (isBlocked ended) with
    | some d =>
      refine ⟨_, rfl, rfl, ?_, .skipped hrejection hstopped⟩
      simp only [runChange, hrejection, hstopped]
    | none =>
      by_cases hnoop : c.action = .noop
      · refine ⟨_, rfl, rfl, ?_, .idle hrejection hstopped hnoop⟩
        simp only [runChange, hrejection, hstopped, if_pos hnoop]
      · cases hrun : runStatements transport options c.urn c.session c.statements p with
        | mk sent q =>
          obtain ⟨said, htalk, hanswered⟩ := runStatements_spec c.statements hrun
          refine ⟨_, rfl, rfl, ?_,
            .carried hrejection hstopped hnoop htalk hanswered sent.accepted⟩
          simp only [runChange, hrejection, hstopped, if_neg hnoop, hrun]

end

/-! ## Without levels -/

section

variable (transport : Transport σ) (options : Options)

/-- Carry out changes one after another, each seeing how those before it ended. -/
def runInOrder (ended : SortedMap Urn Status) :
    List Change → Progress σ → List Outcome × Progress σ
  | [], p => ([], p)
  | c :: rest, p =>
    let (outcome, p) := runChange transport options ended c p
    let (outcomes, p) := runInOrder (ended.insert outcome.urn outcome.status) rest p
    (outcome :: outcomes, p)

variable {transport options}

theorem urn_runChange (ended : SortedMap Urn Status) (c : Change) (p : Progress σ) :
    (runChange transport options ended c p).1.urn = c.urn := by
  obtain ⟨t, rfl, rfl, hrun, htaken⟩ := exists_turn transport options ended c p
  rw [hrun]
  exact htaken.urn

theorem runChange_congr {ended seen : SortedMap Urn Status} {c : Change} {p : Progress σ}
    (h : ∀ d ∈ c.dependsOn, isBlocked ended d = isBlocked seen d) :
    runChange transport options ended c p = runChange transport options seen c p := by
  rw [runChange, runChange, List.find?_congr h]

theorem isBlocked_insert_of_ne {ended : SortedMap Urn Status} {u v : Urn} {s : Status}
    (h : u ≠ v) : isBlocked (ended.insert u s) v = isBlocked ended v := by
  rw [isBlocked, isBlocked, SortedMap.get?_insert_of_ne _ h]

/-- Within a level nothing changes if the changes see one another. -/
theorem runLevel_eq_runInOrder (ended : SortedMap Urn Status) (changes : List Change)
    (hlevel : ∀ c ∈ changes, ∀ d ∈ c.dependsOn, d ∉ changes.map Change.urn)
    (seen : SortedMap Urn Status)
    (hseen : ∀ c ∈ changes, ∀ d ∈ c.dependsOn, isBlocked ended d = isBlocked seen d)
    (p : Progress σ) :
    runLevel transport options ended changes p = runInOrder transport options seen changes p := by
  induction changes generalizing seen p with
  | nil => rfl
  | cons c rest ih =>
    have hrun : runChange transport options ended c p = runChange transport options seen c p :=
      runChange_congr (hseen c List.mem_cons_self)
    rw [runLevel, runInOrder, hrun]
    dsimp only
    rw [ih]
    · intro e he d hd hmem
      exact hlevel e (List.mem_cons_of_mem _ he) d hd (List.mem_cons_of_mem _ hmem)
    · intro e he d hd
      have hne : c.urn ≠ d := by
        rintro rfl
        exact hlevel e (List.mem_cons_of_mem _ he) _ hd List.mem_cons_self
      rw [hseen e (List.mem_cons_of_mem _ he) d hd, urn_runChange, isBlocked_insert_of_ne hne]

theorem runInOrder_append (ended : SortedMap Urn Status) (first later : List Change)
    (p : Progress σ) :
    runInOrder transport options ended (first ++ later) p =
      let (outcomes, q) := runInOrder transport options ended first p
      let (others, r) := runInOrder transport options (note ended outcomes) later q
      (outcomes ++ others, r) := by
  induction first generalizing ended p with
  | nil => rfl
  | cons c rest ih =>
    rw [List.cons_append, runInOrder, runInOrder]
    dsimp only
    rw [ih]
    rfl

theorem runLevels_eq_runInOrder (levels : List (List Change))
    (h : ∀ changes ∈ levels, ∀ c ∈ changes, ∀ d ∈ c.dependsOn, d ∉ changes.map Change.urn)
    (ended : SortedMap Urn Status) (p : Progress σ) :
    runLevels transport options ended levels p =
      runInOrder transport options ended levels.flatten p := by
  induction levels generalizing ended p with
  | nil => rfl
  | cons changes rest ih =>
    rw [List.flatten_cons, runInOrder_append, runLevels,
      runLevel_eq_runInOrder ended changes (h changes List.mem_cons_self) ended fun _ _ _ _ => rfl]
    dsimp only
    rw [ih fun l hl => h l (List.mem_cons_of_mem _ hl)]

/-! ## Turns -/

theorem exists_turns (ended : SortedMap Urn Status) (changes : List Change) (p : Progress σ) :
    ∃ turns : List (Turn σ), turns.map Turn.change = changes ∧
      (runInOrder transport options ended changes p).1 = turns.map Turn.outcome ∧
      Chained p turns (runInOrder transport options ended changes p).2 ∧
      ∀ earlier t later, turns = earlier ++ t :: later →
        Taken transport options (isBlocked (note ended (earlier.map Turn.outcome))) t := by
  induction changes generalizing ended p with
  | nil =>
    refine ⟨[], rfl, rfl, rfl, fun earlier t later h => ?_⟩
    simp at h
  | cons c rest ih =>
    obtain ⟨t, rfl, rfl, hrun, htaken⟩ := exists_turn transport options ended c p
    obtain ⟨turns, rfl, houtcomes, hchained, hturns⟩ :=
      ih (ended.insert t.outcome.urn t.outcome.status) t.after
    rw [runInOrder, hrun]
    refine ⟨t :: turns, rfl, ?_, ⟨rfl, hchained⟩, fun earlier s later h => ?_⟩
    · rw [List.map_cons, ← houtcomes]
    · cases earlier with
      | nil =>
        obtain rfl : t = s := (List.cons.inj h).1
        exact htaken
      | cons e earlier =>
        obtain ⟨rfl, htail⟩ := List.cons.inj h
        exact hturns earlier s later htail

end

end Run
end Reconcile
