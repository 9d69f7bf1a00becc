import Reconcile.Run.Execute
/-!
What a change and the remote say to one another.  Main statement: `runStatements_spec`, statements
are sent with the switches that they need, one after another, until one is refused.
-/

namespace Reconcile
namespace Run

variable {σ : Type} {transport : Transport σ} {options : Options} {urn : Urn}

abbrev Exchange := Command × Except SessionError Unit

def Progress.accept (p : Progress σ) (urn : Urn) (c : Command) : Progress σ :=
  { p with
    session := c.commit p.session
    log := p.log ++ [⟨urn, (c.commit p.session).role, c.sql⟩] }

/-- Commands for a resource are sent one after another, and none after a refusal. -/
inductive Talk (transport : Transport σ) (options : Options) (urn : Urn) :
    Progress σ → List Exchange → Progress σ → Prop
  | silent {p : Progress σ} : Talk transport options urn p [] p
  | accepted {p q r : Progress σ} {c : Command} {rest : List Exchange}
      (hsend : send transport options c.sql p = (.ok (), q))
      (hrest : Talk transport options urn (q.accept urn c) rest r) :
      Talk transport options urn p ((c, .ok ()) :: rest) r
  | refused {p q : Progress σ} {c : Command} {e : SessionError}
      (hsend : send transport options c.sql p = (.error e, q)) :
      Talk transport options urn p [(c, .error e)] q

def allAccepted (commands : List Command) : List Exchange := commands.map fun c => (c, .ok ())

/-- How commands were answered: all of them were accepted, or all up to one that was refused. -/
inductive Answered : List Command → List Exchange → Option ExecutionFault → Prop
  | accepted (commands : List Command) : Answered commands (allAccepted commands) none
  | refused (before later : List Command) (c : Command) (e : SessionError) :
      Answered (before ++ c :: later) (allAccepted before ++ [(c, .error e)])
        (some (.refused c.sql e))

theorem send_session (sql : String) (p : Progress σ) :
    (send transport options sql p).2.session = p.session := by
  unfold send
  split
  · rfl
  · dsimp only
    split
    · rfl
    · rfl

theorem Answered.cons {c : Command} {commands : List Command} {said : List Exchange}
    {fault : Option ExecutionFault} (h : Answered commands said fault) :
    Answered (c :: commands) ((c, .ok ()) :: said) fault := by
  cases h with
  | accepted => exact .accepted (c :: commands)
  | refused before later d e => exact .refused (c :: before) later d e

theorem sendAll_spec (commands : List Command) {p q : Progress σ} {sent : Sent}
    (h : sendAll transport options urn commands p = (sent, q)) :
    ∃ said, Talk transport options urn p said q ∧ Answered commands said sent.refusal ∧
      (sent.refusal = none → q.session = commands.foldl Command.commit p.session) := by
  induction commands generalizing p sent with
  | nil =>
    cases h
    exact ⟨[], .silent, .accepted [], fun _ => rfl⟩
  | cons c rest ih =>
    rw [sendAll] at h
    split at h
    next e r hsend =>
      cases h
      refine ⟨[(c, .error e)], .refused hsend, .refused [] rest c e, fun hnone => ?_⟩
      cases hnone
    next r hsend =>
      obtain ⟨rfl, rfl⟩ := Prod.mk.inj h
      obtain ⟨said, htalk, hanswered, hsession⟩ := ih (p := r.accept urn c) rfl
      refine ⟨(c, .ok ()) :: said, .accepted hsend htalk, hanswered.cons, fun hnone => ?_⟩
      have hr : r.session = p.session := by
        rw [← send_session c.sql p, hsend]
      rw [hsession hnone, List.foldl_cons, ← hr]
      rfl

theorem Talk.append {commands : List Command} {p q r : Progress σ} {said : List Exchange}
    (hfirst : Talk transport options urn p (allAccepted commands) q)
    (hthen : Talk transport options urn q said r) :
    Talk transport options urn p (allAccepted commands ++ said) r := by
  induction commands generalizing p with
  | nil =>
    cases hfirst with
    | silent => exact hthen
  | cons c rest ih =>
    cases hfirst with
    | accepted hsend hrest => exact .accepted hsend (ih hrest)

theorem Talk.exists_send {p q : Progress σ} {said : List Exchange}
    (h : Talk transport options urn p said q) {c : Command} (hc : (c, .ok ()) ∈ said) :
    ∃ r, (send transport options c.sql r).1 = .ok () := by
  induction h with
  | silent => cases hc
  | @accepted p q r d rest hsend hrest ih =>
    rcases List.mem_cons.mp hc with heq | hc
    · obtain rfl := (Prod.mk.inj heq).1
      exact ⟨p, by rw [hsend]⟩
    · exact ih hc
  | refused =>
    cases (Prod.mk.inj (List.mem_singleton.mp hc)).2

theorem Answered.append {first later : List Command} {said : List Exchange}
    {fault : Option ExecutionFault} (h : Answered later said fault) :
    Answered (first ++ later) (allAccepted first ++ said) fault := by
  induction first with
  | nil => exact h
  | cons c rest ih => exact ih.cons

theorem Answered.append_unsent {first later : List Command} {said : List Exchange}
    {fault : ExecutionFault} (h : Answered first said (some fault)) :
    Answered (first ++ later) said (some fault) := by
  generalize hf : some fault = f at h ⊢
  cases h with
  | accepted => cases hf
  | refused before rest c e =>
    rw [List.append_assoc]
    exact .refused before (rest ++ later) c e

theorem not_refused_mem_allAccepted (commands : List Command) (c : Command) (e : SessionError) :
    (c, .error e) ∉ allAccepted commands := by
  intro hmem
  obtain ⟨d, -, heq⟩ := List.mem_map.mp hmem
  cases (Prod.mk.inj heq).2

theorem Answered.fault_eq_none_iff {commands : List Command} {said : List Exchange}
    {fault : Option ExecutionFault} (h : Answered commands said fault) :
    fault = none ↔ said = allAccepted commands := by
  cases h with
  | accepted => exact iff_of_true rfl rfl
  | refused before later c e =>
    refine iff_of_false (Option.some_ne_none _) fun heq => ?_
    refine not_refused_mem_allAccepted (before ++ c :: later) c e ?_
    rw [← heq]
    exact List.mem_append_right _ List.mem_cons_self

/-- The commands that statements need: before each the switches that the session is then short
of. -/
def needed (options : Options) (needs : SessionNeeds) : SessionState → List Statement →
    List Command
  | _, [] => []
  | session, s :: rest =>
    let first := commands options session needs s
    first ++ needed options needs (first.foldl Command.commit session) rest

theorem runStatements_spec {needs : SessionNeeds} (statements : List Statement)
    {p q : Progress σ} {sent : Sent}
    (h : runStatements transport options urn needs statements p = (sent, q)) :
    ∃ said, Talk transport options urn p said q ∧
      Answered (needed options needs p.session statements) said sent.refusal := by
  induction statements generalizing p sent with
  | nil =>
    cases h
    exact ⟨[], .silent, .accepted []⟩
  | cons s rest ih =>
    rw [runStatements] at h
    rw [needed]
    split at h
    next accepted fault r hsend =>
      cases h
      obtain ⟨said, htalk, hanswered, -⟩ := sendAll_spec _ hsend
      exact ⟨said, htalk, hanswered.append_unsent⟩
    next accepted r hsend =>
      obtain ⟨rfl, rfl⟩ := Prod.mk.inj h
      obtain ⟨said, htalk, hanswered, hsession⟩ := sendAll_spec _ hsend
      obtain rfl := hanswered.fault_eq_none_iff.mp rfl
      obtain ⟨later, hlater, hrest⟩ := ih (p := r) rfl
      rw [hsession rfl] at hrest
      exact ⟨_, htalk.append hlater, hrest.append⟩

end Run
end Reconcile
