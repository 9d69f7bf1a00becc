import Reconcile.Proofs.Run.Observed
/-!
What the report of a run says of it.  Main statement: `execute_keeps_record`, the statements on
record are those that the session accepted, and each change has an outcome with its own part of
them.
-/

namespace Reconcile

/-! ## Counts -/

theorem RunSummary.total_foldl (outcomes : List Outcome) (s : RunSummary) :
    (outcomes.foldl (fun s o => s.add o.action o.status) s).total = s.total + outcomes.length := by
  induction outcomes generalizing s with
  | nil => rfl
  | cons o rest ih =>
    rw [List.foldl_cons, ih, total_add, List.length_cons]
    omega

theorem RunSummary.isSuccess_foldl (outcomes : List Outcome) (s : RunSummary) :
    (outcomes.foldl (fun s o => s.add o.action o.status) s).isSuccess =
      (s.isSuccess && outcomes.all fun o => o.status.isApplied) := by
  induction outcomes generalizing s with
  | nil => exact (Bool.and_true _).symm
  | cons o rest ih => rw [List.foldl_cons, ih, isSuccess_add, List.all_cons, Bool.and_assoc]

theorem Report.total_summary (r : Report) : r.summary.total = r.outcomes.length :=
  (RunSummary.total_foldl r.outcomes {}).trans (Nat.zero_add _)

theorem Status.isApplied_iff {s : Status} : s.isApplied ↔ s = .applied := by
  cases s with
  | _ => simp [isApplied]

theorem Report.isSuccess_iff {r : Report} :
    r.isSuccess ↔ ∀ o ∈ r.outcomes, o.status = .applied := by
  have h : r.isSuccess = (true && r.outcomes.all fun o => o.status.isApplied) :=
    RunSummary.isSuccess_foldl r.outcomes {}
  simp [h, Status.isApplied_iff]

namespace Run

variable {σ : Type} {transport : Transport σ} {options : Options} {urn : Urn}
  {needs : SessionNeeds}

/-! ## Switches apart -/

def ownStatements (sent : List Command) : List String := sent.filterMap Command.statement?

/-- Switches apart, what statements need are the statements. -/
theorem ownStatements_needed (options : Options) (needs : SessionNeeds) (session : SessionState)
    (statements : List Statement) :
    ownStatements (needed options needs session statements) = statements.map Statement.sql := by
  induction statements generalizing session with
  | nil => rfl
  | cons s rest ih =>
    rw [needed, ownStatements, List.filterMap_append, filterMap_commands]
    exact congrArg (s.sql :: ·) (ih _)

theorem ownStatements_ne_nil {session : SessionState} {statements : List Statement}
    {before rest : List Command} {c : Command}
    (h : needed options needs session statements = before ++ c :: rest) :
    ownStatements (c :: rest) ≠ [] := by
  induction statements generalizing session before with
  | nil => simp [needed] at h
  | cons s later ih =>
    have hlast : commands options session needs s =
        (session.switchesFor s.role needs options.useSecondaryRoles).map .switch ++
          [.statement s.sql] := rfl
    rw [needed, List.append_eq_append_iff] at h
    rcases h with ⟨more, -, hrest⟩ | ⟨more, hfirst, hrest⟩
    · exact ih hrest
    · cases more with
      | nil =>
        have hrest : needed options needs _ later = [] ++ c :: rest := hrest.symm
        exact ih hrest
      | cons d more =>
        -- The cut is among the commands of the first statement, which come to an end with it.
        have hmem : Command.statement s.sql ∈ d :: more := by
          have hend : (before ++ d :: more).getLast? = some (.statement s.sql) := by
            rw [← hfirst, hlast, List.getLast?_concat]
          rw [List.getLast?_append_of_ne_nil _ (List.cons_ne_nil d more)] at hend
          exact List.mem_of_getLast? hend
        rw [hrest]
        have hown : s.sql ∈ ownStatements (d :: more ++ needed options needs
            ((commands options session needs s).foldl Command.commit session) later) :=
          List.mem_filterMap.mpr ⟨_, List.mem_append_left _ hmem, rfl⟩
        exact List.ne_nil_of_mem hown

/-! ## What is recorded of a change -/

theorem map_sql_recorded (urn : Urn) (session : SessionState) (sent : List Command)
    (rest : List Exchange) :
    (recorded urn session (allAccepted sent ++ rest)).map Executed.sql =
      sent.map Command.sql ++
        (recorded urn (sent.foldl Command.commit session) rest).map Executed.sql := by
  induction sent generalizing session with
  | nil => rfl
  | cons c sent ih => exact congrArg (c.sql :: ·) (ih (c.commit session))

theorem urn_of_mem_recorded {session : SessionState} {said : List Exchange} {e : Executed}
    (h : e ∈ recorded urn session said) : e.urn = urn := by
  induction said generalizing session with
  | nil => cases h
  | cons x rest ih =>
    obtain ⟨c, answer⟩ := x
    cases answer with
    | error => exact ih h
    | ok =>
      rcases List.mem_cons.mp h with rfl | h
      · rfl
      · exact ih h

/-- The record of an outcome is that of commands with which the statements of its change begin. -/
structure Records (options : Options) (c : Change) (o : Outcome) (sent : List Command) : Prop where
  sql : o.statements.map Executed.sql = sent.map Command.sql
  begins : ∃ session, sent <+: needed options c.session session c.statements

/-- An outcome tells exactly what was done for its change. -/
structure Accounts (options : Options) (c : Change) (o : Outcome) : Prop where
  urn : o.urn = c.urn
  action : o.action = c.action
  level : o.level = c.level
  own : ∀ e ∈ o.statements, e.urn = c.urn
  applied : o.status = .applied → c.action ≠ .noop → ∃ sent, Records options c o sent ∧
    ownStatements sent = c.statements.map Statement.sql
  failed : ∀ error, o.status = .failed error → c.rejection = none →
    ∃ sent, Records options c o sent ∧
      ownStatements sent <+: c.statements.map Statement.sql ∧
      ownStatements sent ≠ c.statements.map Statement.sql
  silent : (c.rejection ≠ none ∨ (∃ reason, o.status = .skipped reason) ∨ c.action = .noop) →
    o.statements = []

theorem accounts_outcome {c : Change} {status : Status}
    (hfailed : ∀ error, status = .failed error → c.rejection ≠ none)
    (happlied : status = .applied → c.action = .noop) :
    Accounts options c (c.outcome status) where
  urn := rfl
  action := rfl
  level := rfl
  own := List.forall_mem_nil _
  applied := fun h hnoop => absurd (happlied h) hnoop
  failed := fun error h hrejection => absurd hrejection (hfailed error h)
  silent := fun _ => rfl

theorem accounts_skipped (c : Change) (reason : String) :
    Accounts options c (c.outcome (.skipped reason)) :=
  accounts_outcome (fun _ h => nomatch h) (fun h => nomatch h)

theorem accounts_runChange (transport : Transport σ) (options : Options)
    (ended : SortedMap Urn Status) (c : Change) (p : Progress σ) :
    Accounts options c (runChange transport options ended c p).1 := by
  obtain ⟨t, rfl, rfl, hrun, htaken, hkept⟩ := exists_kept transport options ended c p
  rw [hrun]
  have hrecord := hkept.statements_eq
  cases htaken with
  | @rejected c p text hrejection =>
    refine accounts_outcome (fun _ _ hnone => ?_) (fun h => nomatch h)
    rw [hrejection] at hnone
    cases hnone
  | skipped => exact accounts_skipped _ _
  | idle _ _ hnoop => exact accounts_outcome (fun _ h => nomatch h) fun _ => hnoop
  | @carried c p q said fault hrejection _ hnoop _ hanswered accepted =>
    refine ⟨rfl, rfl, rfl, fun e he => urn_of_mem_recorded (hrecord ▸ he), ?_, ?_, ?_⟩
    · intro happlied _
      obtain rfl := hanswered.fault_eq_none_iff.mp (statusOf_eq_applied_iff.mp happlied)
      refine ⟨_, ⟨?_, p.session, List.prefix_refl _⟩,
        ownStatements_needed options c.session p.session _⟩
      have hsql := map_sql_recorded c.urn p.session
        (needed options c.session p.session c.statements) []
      rw [List.append_nil] at hsql
      exact (congrArg (List.map Executed.sql) hrecord).trans (hsql.trans (List.append_nil _))
    · intro error herror _
      generalize hall : needed options c.session p.session c.statements = all at hanswered
      cases hanswered with
      | accepted => cases herror
      | refused sent unsent d e =>
        have hown := ownStatements_needed options c.session p.session c.statements
        rw [hall, ownStatements, List.filterMap_append] at hown
        refine ⟨sent, ⟨?_, p.session, hall ▸ List.prefix_append _ _⟩, ⟨_, hown⟩, fun hsame => ?_⟩
        · have hsql := map_sql_recorded c.urn p.session sent [(d, .error e)]
          exact (congrArg (List.map Executed.sql) hrecord).trans (hsql.trans (List.append_nil _))
        · rw [← hsame] at hown
          exact ownStatements_ne_nil hall (List.append_right_eq_self.mp hown)
    · intro hidle
      rcases hidle with hidle | ⟨reason, hidle⟩ | hidle
      · exact absurd hrejection hidle
      · exact absurd hidle (statusOf_ne_skipped _ _ _)
      · exact absurd hidle hnoop

/-! ## What is recorded of a run -/

theorem forall₂_runLevel {P : Change → Outcome → Prop} (ended : SortedMap Urn Status)
    (h : ∀ c p, P c (runChange transport options ended c p).1) (changes : List Change)
    (p : Progress σ) :
    List.Forall₂ P changes (runLevel transport options ended changes p).1 := by
  induction changes generalizing p with
  | nil => exact .nil
  | cons c rest ih => exact .cons (h c p) (ih _)

/-- What holds of every change that is run and its outcome holds of a whole run. -/
theorem forall₂_runLevels {P : Change → Outcome → Prop}
    (h : ∀ ended c p, P c (runChange transport options ended c p).1)
    (ended : SortedMap Urn Status) (levels : List (List Change)) (p : Progress σ) :
    List.Forall₂ P levels.flatten (runLevels transport options ended levels p).1 := by
  induction levels generalizing ended p with
  | nil => exact .nil
  | cons changes rest ih =>
    exact List.rel_append (forall₂_runLevel ended (h ended) changes p) (ih _ _)

theorem log_runLevels (transport : Transport σ) (options : Options) (ended : SortedMap Urn Status)
    (levels : List (List Change)) (p : Progress σ) :
    (runLevels transport options ended levels p).2.log =
      p.log ++ (runLevels transport options ended levels p).1.flatMap Outcome.statements := by
  obtain ⟨turns, -, houtcomes, hchained, hkept⟩ :=
    exists_turns_of_levels transport options ended levels p
  rw [(hchained.kept hkept).2, houtcomes, List.flatMap_map]

theorem preserved_accepted (transport : Transport σ) (hlive : options.dryRun = false) :
    Preserved transport.observed options fun p =>
      p.log.map Executed.sql = p.remote.2.filterMap Contact.accepted? := by
  have hopened {p : Progress (σ × List Contact)} {opened : σ × List Contact}
      (h : p.connected = true ∧ opened = p.remote ∨ p.connected = false ∧
        transport.observed.connect p.remote = (.ok (), opened)) :
      opened.2.filterMap Contact.accepted? = p.remote.2.filterMap Contact.accepted? := by
    rcases h with ⟨-, rfl⟩ | ⟨-, hconnect⟩
    · rfl
    · rw [transport.connect_observed] at hconnect
      obtain ⟨-, rfl⟩ := Prod.mk.inj hconnect
      simp [Contact.accepted?]
  constructor
  · intro urn c p q hp hsend
    rcases send_cases hlive hsend with ⟨e, _, -, -, h, -⟩ | ⟨opened, remote, hopen, hanswer, rfl⟩
    · cases h
    · rw [transport.send_observed] at hanswer
      obtain ⟨hok, hremote⟩ := Prod.mk.inj hanswer
      obtain rfl := hremote
      rw [hok]
      simp [Progress.accept, hp, hopened hopen, Contact.accepted?]
  · intro sql p q e hp hsend
    rcases send_cases hlive hsend with ⟨_, remote, -, hconnect, -, rfl⟩ |
      ⟨opened, remote, hopen, hanswer, rfl⟩
    · rw [transport.connect_observed] at hconnect
      obtain ⟨hrefused, rfl⟩ := Prod.mk.inj hconnect
      simp [hp, Contact.accepted?]
    · rw [transport.send_observed] at hanswer
      obtain ⟨hrefused, hremote⟩ := Prod.mk.inj hanswer
      obtain rfl := hremote
      rw [hrefused]
      simp [hp, hopened hopen, Contact.accepted?]

/-- The report of a live run, whatever the transport refuses.  The statements on record are those
that the session accepted, in their order, and they are those of the outcomes.  Each change has one
outcome, in the order of the plan, that accounts for what was done.  A run that is declined, or not
answered, asks nothing of the transport and skips every change. -/
theorem execute_keeps_record (plan : Plan) (transport : Transport σ) (options : Options)
    (confirm : String → Answer) (remote : σ) (hlive : options.dryRun = false) :
    ∃ contacts,
      (execute plan transport.observed options confirm (remote, [])).report =
        (execute plan transport options confirm remote).report ∧
      (execute plan transport.observed options confirm (remote, [])).remote =
        ((execute plan transport options confirm remote).remote, contacts) ∧
      (execute plan transport options confirm remote).report.statements.map Executed.sql =
        contacts.filterMap Contact.accepted? ∧
      (execute plan transport options confirm remote).report.statements =
        (execute plan transport options confirm remote).report.outcomes.flatMap
          Outcome.statements ∧
      List.Forall₂ (Accounts options) plan.changes
        (execute plan transport options confirm remote).report.outcomes ∧
      (execute plan transport options confirm remote).report.summary.total =
        plan.changes.length ∧
      ((execute plan transport options confirm remote).report.isSuccess ↔
        ∀ o ∈ (execute plan transport options confirm remote).report.outcomes,
          o.status = .applied) ∧
      (¬ isConfirmed plan options confirm → contacts = [] ∧
        ∀ o ∈ (execute plan transport options confirm remote).report.outcomes,
          o.status = .skipped "apply declined") := by
  obtain ⟨hreport, hremote⟩ := execute_observed plan transport options confirm remote []
  obtain ⟨final, hconfirmed, hdeclined, hend, hlog⟩ :=
    (preserved_accepted transport hlive).execute plan confirm (remote, []) rfl
  have hcontacts : (execute plan transport options confirm remote).report.statements.map
      Executed.sql = final.remote.2.filterMap Contact.accepted? := by
    rw [← hreport, hlog]
    by_cases h : isConfirmed plan options confirm
    · exact hconfirmed h
    · rw [hdeclined h]
      rfl
  have hrecord : (execute plan transport options confirm remote).report.statements =
        (execute plan transport options confirm remote).report.outcomes.flatMap
          Outcome.statements ∧
      List.Forall₂ (Accounts options) plan.changes
        (execute plan transport options confirm remote).report.outcomes ∧
      (¬ isConfirmed plan options confirm →
        ∀ o ∈ (execute plan transport options confirm remote).report.outcomes,
          o.status = .skipped "apply declined") := by
    by_cases h : isConfirmed plan options confirm
    · rw [execute, if_pos h]
      refine ⟨log_runLevels transport options .empty (plan.levels.map (·.2)) { remote }, ?_,
        fun hnot => absurd h hnot⟩
      have hall := forall₂_runLevels (accounts_runChange transport options) .empty
        (plan.levels.map (·.2)) { remote }
      rwa [plan.flatten_levels] at hall
    · rw [execute, if_neg h]
      refine ⟨(List.flatMap_eq_nil_iff.mpr fun o ho => ?_).symm, ?_, fun _ o ho => ?_⟩
      · obtain ⟨c, -, rfl⟩ := List.mem_map.mp ho
        rfl
      · refine List.forall₂_map_right_iff.mpr (List.forall₂_same.mpr fun c _ => ?_)
        exact accounts_skipped c _
      · obtain ⟨c, -, rfl⟩ := List.mem_map.mp ho
        rfl
  refine ⟨final.remote.2, hreport, ?_, hcontacts, hrecord.1, hrecord.2.1, ?_,
    Report.isSuccess_iff, fun h => ⟨?_, hrecord.2.2 h⟩⟩
  · rw [← hremote, hend]
  · rw [Report.total_summary, hrecord.2.1.length_eq]
  · rw [hdeclined h]

theorem record_of_flaky :
    ({} : Options).dryRun = false ∧
    ∃ contacts : List Contact,
      (execute (.ofChanges [creationOf "D", creationOf "E"]) flaky {}
          (fun _ => .accepted) 0).report.statements.map Executed.sql =
        contacts.filterMap Contact.accepted? ∧
      List.Forall₂ (Accounts {}) (Plan.ofChanges [creationOf "D", creationOf "E"]).changes
        (execute (.ofChanges [creationOf "D", creationOf "E"]) flaky {}
          (fun _ => .accepted) 0).report.outcomes ∧
      (execute (.ofChanges [creationOf "D", creationOf "E"]) flaky {}
        (fun _ => .accepted) 0).report.summary.total = 2 := by
  obtain ⟨contacts, -, -, haccepted, -, haccounts, htotal, -⟩ :=
    execute_keeps_record (.ofChanges [creationOf "D", creationOf "E"]) flaky {}
      (fun _ => .accepted) 0 rfl
  refine ⟨rfl, contacts, haccepted, haccounts, htotal.trans ?_⟩
  rw [(Plan.perm_ofChanges [creationOf "D", creationOf "E"]).length_eq]
  rfl

end Run
end Reconcile
