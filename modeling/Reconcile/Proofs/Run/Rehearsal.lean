import Reconcile.Proofs.Run.Observed
/-!
A run that only records.  Main statement: `execute_rehearsed`, a dry run reports what a run over a
transport that accepts everything reports, and touches nothing.
-/

namespace Reconcile
namespace Run

variable {σ τ : Type} {transport : Transport σ} {options : Options}

/-! ## Where everything is accepted -/

theorem send_accepted (options : Options) (haccepts : transport.Steady (.ok ()) fun _ => .ok ())
    (sql : String) (p : Progress σ) : (send transport options sql p).1 = .ok () := by
  cases hdry : options.dryRun with
  | true => rw [send, hdry, if_pos rfl]
  | false =>
    cases hsend : send transport options sql p with
    | mk answer q =>
      rcases send_cases hdry hsend with
        ⟨e, remote, -, hconnect, -⟩ | ⟨opened, remote, -, hanswer, -⟩
      · have hopened := haccepts.connect p.remote
        rw [hconnect] at hopened
        cases hopened
      · have hok := haccepts.send sql opened
        rw [hanswer] at hok
        exact hok

/-- What the transport was asked when all of a log was accepted: for one session before the first
statement, and for each statement. -/
def contactsOf : List Executed → List Contact
  | [] => []
  | e :: rest => .connect (.ok ()) :: (e :: rest).map fun e => .send e.sql (.ok ())

theorem contactsOf_concat {log : List Executed} (h : log ≠ []) (e : Executed) :
    contactsOf (log ++ [e]) = contactsOf log ++ [.send e.sql (.ok ())] := by
  cases log with
  | nil => exact absurd rfl h
  | cons first rest => simp [contactsOf]

/-- The session is open once something is on record. -/
theorem preserved_contactsOf (hlive : options.dryRun = false)
    (haccepts : transport.Steady (.ok ()) fun _ => .ok ()) :
    Preserved transport.observed options fun p =>
      p.remote.2 = contactsOf p.log ∧ (p.connected = true ↔ p.log ≠ []) := by
  have haccepts' : transport.observed.Steady (.ok ()) fun _ => .ok () :=
    ⟨fun seen => haccepts.connect seen.1, fun sql seen => haccepts.send sql seen.1⟩
  constructor
  · intro urn c p q ⟨hcontacts, hopen⟩ hsend
    rcases send_cases hlive hsend with ⟨_, _, -, -, h, -⟩ | ⟨opened, remote, hsession, hanswer, rfl⟩
    · cases h
    · rw [transport.send_observed, haccepts.send] at hanswer
      obtain rfl := (Prod.mk.inj hanswer).2
      refine ⟨?_, iff_of_true rfl (List.append_ne_nil_of_right_ne_nil _ (List.cons_ne_nil _ _))⟩
      rcases hsession with ⟨hconnected, rfl⟩ | ⟨hconnected, hconnect⟩
      · show p.remote.2 ++ [.send c.sql (.ok ())] =
          contactsOf (p.log ++ [⟨urn, (c.commit p.session).role, c.sql⟩])
        rw [hcontacts, contactsOf_concat (hopen.mp hconnected)]
      · -- A session is opened for the first statement, before which nothing is on record.
        have hlog : p.log = [] := by
          by_contra hne
          cases hconnected.symm.trans (hopen.mpr hne)
        rw [transport.connect_observed, haccepts.connect] at hconnect
        obtain rfl := (Prod.mk.inj hconnect).2
        show (p.remote.2 ++ [.connect (.ok ())]) ++ [.send c.sql (.ok ())] =
          contactsOf (p.log ++ [⟨urn, (c.commit p.session).role, c.sql⟩])
        rw [hcontacts, hlog]
        rfl
  · intro sql p q e _ hsend
    have hok := send_accepted options haccepts' sql p
    rw [hsend] at hok
    cases hok

/-! ## Without sending -/

/-- A dry run and one where everything is accepted get the same answers. -/
theorem alike_dryRun (options : Options) (plain : Transport τ) (there : τ)
    (haccepts : transport.Steady (.ok ()) fun _ => .ok ()) :
    Alike plain { options with dryRun := true } transport { options with dryRun := false }
      fun remote _ _ _ => remote = there := by
  refine ⟨rfl, fun sql p q hpq => ?_⟩
  have hdry : send plain { options with dryRun := true } sql p = (.ok (), p) := rfl
  rw [hdry, send_accepted _ haccepts]
  exact ⟨rfl, hpq.session.trans (send_session sql q).symm,
    hpq.log.trans (send_log transport { options with dryRun := false } sql q).symm, hpq.linked⟩

theorem execute_dryRun (plan : Plan) (plain : Transport τ) (ask confirm : String → Answer)
    (there : τ) (remote : σ) (haccepts : transport.Steady (.ok ()) fun _ => .ok ())
    (hconfirmed : isConfirmed plan { options with dryRun := false } confirm) :
    execute plan plain { options with dryRun := true } ask there =
      let live := execute plan transport { options with dryRun := false } confirm remote
      ⟨{ live.report with dryRun := true }, live.events, none, there⟩ := by
  have hask : isConfirmed plan { options with dryRun := true } ask := rfl
  obtain ⟨houtcomes, hend⟩ := (alike_dryRun options plain there haccepts).runLevels
    .empty (plan.levels.map (·.2)) (p := { remote := there }) (q := { remote }) ⟨rfl, rfl, rfl⟩
  rw [execute, execute, if_pos hask, if_pos hconfirmed]
  dsimp only
  rw [houtcomes, hend.log, hend.linked]
  rfl

/-- A dry run tells what would be done: but for the flag it has the report of a run that is
confirmed and whose transport accepts everything.  It asks no question and nothing of its transport.
The other asks for one session, if there is anything to send, and sends the statements on record in
their order. -/
theorem execute_rehearsed (plan : Plan) (transport : Transport σ) (plain : Transport τ)
    (options : Options) (ask confirm : String → Answer) (there : τ) (remote : σ)
    (haccepts : transport.Steady (.ok ()) fun _ => .ok ())
    (hconfirmed : isConfirmed plan { options with dryRun := false } confirm) :
    let live := execute plan transport { options with dryRun := false } confirm remote
    execute plan plain { options with dryRun := true } ask there =
      ⟨{ live.report with dryRun := true }, live.events, none, there⟩ ∧
    (execute plan plain.observed { options with dryRun := true } ask (there, [])).remote.2 = [] ∧
    (execute plan transport.observed { options with dryRun := false } confirm
      (remote, [])).remote.2 = contactsOf live.report.statements := by
  refine ⟨execute_dryRun plan plain ask confirm there remote haccepts hconfirmed, ?_, ?_⟩
  · rw [execute_dryRun plan plain.observed ask confirm (there, []) remote haccepts hconfirmed]
  · have hpreserved : Preserved transport.observed { options with dryRun := false } _ :=
      preserved_contactsOf rfl haccepts
    obtain ⟨final, hkept, -, hremote, hlog⟩ := hpreserved.execute plan confirm (remote, [])
      ⟨rfl, iff_of_false Bool.false_ne_true fun h => h rfl⟩
    obtain ⟨hreport, -⟩ :=
      execute_observed plan transport { options with dryRun := false } confirm remote []
    rw [hremote, ← hreport, hlog]
    exact (hkept hconfirmed).1

def counting : Transport Nat where
  connect count := (.ok (), count + 1)
  send _ count := (.ok (), count + 1)

theorem rehearsal_of_counting :
    counting.Steady (.ok ()) (fun _ => .ok ()) ∧
    isConfirmed (.ofChanges [creationOf "D", creationOf "E"]) {} (fun _ => .accepted) ∧
    (execute (.ofChanges [creationOf "D", creationOf "E"]) .disconnected { dryRun := true }
        (fun _ => .declined) ()).report =
      { (execute (.ofChanges [creationOf "D", creationOf "E"]) counting {} (fun _ => .accepted)
          0).report with dryRun := true } := by
  have haccepts : counting.Steady (.ok ()) fun _ => .ok () := ⟨fun _ => rfl, fun _ _ => rfl⟩
  have hconfirmed := isConfirmed_of_accepted (.ofChanges [creationOf "D", creationOf "E"]) {}
  obtain ⟨hdry, -, -⟩ := execute_rehearsed (.ofChanges [creationOf "D", creationOf "E"]) counting
    .disconnected {} (fun _ => .declined) (fun _ => .accepted) () 0 haccepts hconfirmed
  exact ⟨haccepts, hconfirmed, by rw [hdry]⟩

end Run
end Reconcile
