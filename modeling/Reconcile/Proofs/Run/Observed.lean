import Reconcile.Proofs.Run.Lockstep
import Reconcile.Proofs.Run.Session
/-!
What a transport sees of a run.  Main statements: `execute_observed`, looking on changes nothing,
and `Preserved.execute`, what no statement takes away holds to the end of a run.
-/

namespace Reconcile

inductive Contact where
  | connect (answer : Except SessionError Unit)
  | send (sql : String) (answer : Except SessionError Unit)

def Contact.accepted? : Contact → Option String
  | connect _ => none
  | send sql (.ok ()) => some sql
  | send _ (.error _) => none

def Transport.observed {σ : Type} (transport : Transport σ) : Transport (σ × List Contact) where
  connect seen :=
    let (answer, remote) := transport.connect seen.1
    (answer, remote, seen.2 ++ [.connect answer])
  send sql seen :=
    let (answer, remote) := transport.send sql seen.1
    (answer, remote, seen.2 ++ [.send sql answer])

theorem Transport.connect_observed {σ : Type} (transport : Transport σ)
    (seen : σ × List Contact) : transport.observed.connect seen =
      ((transport.connect seen.1).1, (transport.connect seen.1).2,
        seen.2 ++ [.connect (transport.connect seen.1).1]) := rfl

theorem Transport.send_observed {σ : Type} (transport : Transport σ) (sql : String)
    (seen : σ × List Contact) : transport.observed.send sql seen =
      ((transport.send sql seen.1).1, (transport.send sql seen.1).2,
        seen.2 ++ [.send sql (transport.send sql seen.1).1]) := rfl

/-- Sessions always open or never do, and the answer to a statement depends on its text alone. -/
structure Transport.Steady {σ : Type} (transport : Transport σ)
    (opening : Except SessionError Unit) (answer : String → Except SessionError Unit) : Prop where
  connect : ∀ remote, (transport.connect remote).1 = opening
  send : ∀ sql remote, (transport.send sql remote).1 = answer sql

namespace Run

variable {σ : Type} {transport : Transport σ} {options : Options}

theorem isConfirmed_of_accepted (plan : Plan) (options : Options) :
    isConfirmed plan options fun _ => .accepted := by
  unfold isConfirmed
  cases question? plan options with
  | _ => rfl

/-! ## One statement of a live run -/

theorem send_cases (hlive : options.dryRun = false) {sql : String} {p q : Progress σ}
    {answer : Except SessionError Unit} (h : send transport options sql p = (answer, q)) :
    (∃ e remote, p.connected = false ∧ transport.connect p.remote = (.error e, remote) ∧
      answer = .error e ∧ q = { p with remote }) ∨
    ∃ opened remote, (p.connected = true ∧ opened = p.remote ∨
        p.connected = false ∧ transport.connect p.remote = (.ok (), opened)) ∧
      transport.send sql opened = (answer, remote) ∧
      q = { p with remote, connected := true } := by
  rw [send, hlive, if_neg Bool.false_ne_true] at h
  cases hconnected : p.connected with
  | true =>
    rw [hconnected, if_pos rfl] at h
    obtain ⟨rfl, rfl⟩ := Prod.mk.inj h
    exact .inr ⟨p.remote, _, .inl ⟨rfl, rfl⟩, rfl, rfl⟩
  | false =>
    rw [hconnected, if_neg Bool.false_ne_true] at h
    cases hconnect : transport.connect p.remote with
    | mk opened remote =>
      rw [hconnect] at h
      cases opened with
      | error e =>
        obtain ⟨rfl, rfl⟩ := Prod.mk.inj h
        exact .inl ⟨e, remote, rfl, rfl, rfl, by rw [← hconnected]⟩
      | ok =>
        obtain ⟨rfl, rfl⟩ := Prod.mk.inj h
        exact .inr ⟨remote, _, .inr ⟨rfl, rfl⟩, rfl, rfl⟩

/-! ## What a whole run preserves -/

/-- A property of a run in progress that no statement, accepted or refused, takes away. -/
structure Preserved (transport : Transport σ) (options : Options) (P : Progress σ → Prop) :
    Prop where
  accepted : ∀ {urn : Urn} {c : Command} {p q : Progress σ}, P p →
    send transport options c.sql p = (.ok (), q) → P (q.accept urn c)
  refused : ∀ {sql : String} {p q : Progress σ} {e : SessionError}, P p →
    send transport options sql p = (.error e, q) → P q

namespace Preserved

variable {P : Progress σ → Prop} (h : Preserved transport options P)

include h

theorem talk {urn : Urn} {p q : Progress σ} {said : List Exchange}
    (htalk : Talk transport options urn p said q) (hp : P p) : P q := by
  induction htalk with
  | silent => exact hp
  | accepted hsend _ ih => exact ih (h.accepted hp hsend)
  | refused hsend => exact h.refused hp hsend

theorem chained {p q : Progress σ} {turns : List (Turn σ)} (hchained : Chained p turns q)
    (hall : ∀ t ∈ turns, Kept transport options t) (hp : P p) : P q := by
  induction turns generalizing p with
  | nil =>
    obtain rfl : p = q := hchained
    exact hp
  | cons t turns ih =>
    obtain ⟨rfl, hrest⟩ := hchained
    obtain ⟨ht, hall⟩ := List.forall_mem_cons.mp hall
    exact ih hrest hall (h.talk ht.talk hp)

/-- What holds at the start holds of the remote and the log at the end. -/
theorem execute (plan : Plan) (confirm : String → Answer) (remote : σ) (hstart : P { remote }) :
    ∃ final : Progress σ, (isConfirmed plan options confirm → P final) ∧
      (¬ isConfirmed plan options confirm → final = { remote }) ∧
      (execute plan transport options confirm remote).remote = final.remote ∧
      (execute plan transport options confirm remote).report.statements = final.log := by
  by_cases hconfirmed : isConfirmed plan options confirm
  · obtain ⟨turns, -, -, hchained, hkept⟩ :=
      exists_turns_of_levels transport options .empty (plan.levels.map (·.2)) { remote }
    rw [Run.execute, if_pos hconfirmed]
    exact ⟨_, fun _ => h.chained hchained hkept hstart, fun hnot => absurd hconfirmed hnot, rfl,
      rfl⟩
  · rw [Run.execute, if_neg hconfirmed]
    exact ⟨{ remote }, fun hyes => absurd hyes hconfirmed, fun _ => rfl, rfl, rfl⟩

end Preserved

/-! ## Looking on -/

theorem alike_observed (transport : Transport σ) (options : Options) :
    Alike transport options transport.observed options
      fun remote connected seen connected' => remote = seen.1 ∧ connected = connected' := by
  refine ⟨rfl, fun sql p q hpq => ?_⟩
  obtain ⟨hsession, hlog, hremote, hconnected⟩ := hpq
  rw [send, send, hremote, hconnected]
  split
  · exact ⟨rfl, hsession, hlog, hremote, hconnected⟩
  · rw [transport.connect_observed]
    cases q.connected with
    | true => exact ⟨rfl, hsession, hlog, rfl, rfl⟩
    | false =>
      cases transport.connect q.remote.1 with
      | mk opened remote =>
        cases opened with
        | error e => exact ⟨rfl, hsession, hlog, rfl, rfl⟩
        | ok => exact ⟨rfl, hsession, hlog, rfl, rfl⟩

/-- A run that is looked on is the same run. -/
theorem execute_observed (plan : Plan) (transport : Transport σ) (options : Options)
    (confirm : String → Answer) (remote : σ) (contacts : List Contact) :
    (execute plan transport.observed options confirm (remote, contacts)).report =
        (execute plan transport options confirm remote).report ∧
      (execute plan transport.observed options confirm (remote, contacts)).remote.1 =
        (execute plan transport options confirm remote).remote := by
  rw [execute, execute]
  split
  · obtain ⟨houtcomes, hafter⟩ := (alike_observed transport options).runLevels .empty
      (plan.levels.map (·.2)) (p := { remote }) (q := { remote := (remote, contacts) })
      ⟨rfl, rfl, rfl, rfl⟩
    dsimp only
    rw [houtcomes, hafter.log]
    exact ⟨rfl, hafter.linked.1.symm⟩
  · exact ⟨rfl, rfl⟩

end Run
end Reconcile
