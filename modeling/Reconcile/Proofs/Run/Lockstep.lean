import Reconcile.Run.Execute
/-!
Two runs of one plan side by side.  Main statement: `Alike.runLevels`, where every command gets the
same answer in both, all else is the same in both.
-/

namespace Reconcile
namespace Run

variable {σ τ : Type}

/-- Two runs have told the same so far, and what they know of their remotes stands in a relation. -/
structure InStep (Linked : σ → Bool → τ → Bool → Prop) (p : Progress σ) (q : Progress τ) :
    Prop where
  session : p.session = q.session
  log : p.log = q.log
  linked : Linked p.remote p.connected q.remote q.connected

/-- Runs in step get the same answers, and stay in step. -/
structure Alike (transport : Transport σ) (options : Options) (transport' : Transport τ)
    (options' : Options) (Linked : σ → Bool → τ → Bool → Prop) : Prop where
  secondaryRoles : options.useSecondaryRoles = options'.useSecondaryRoles
  send : ∀ (sql : String) {p : Progress σ} {q : Progress τ}, InStep Linked p q →
    (send transport options sql p).1 = (send transport' options' sql q).1 ∧
      InStep Linked (send transport options sql p).2 (send transport' options' sql q).2

namespace Alike

variable {transport : Transport σ} {options : Options} {transport' : Transport τ}
  {options' : Options} {Linked : σ → Bool → τ → Bool → Prop}
  (h : Alike transport options transport' options' Linked) {p : Progress σ} {q : Progress τ}

include h

theorem sendAll (urn : Urn) (commands : List Command) (hpq : InStep Linked p q) :
    (sendAll transport options urn commands p).1 =
        (sendAll transport' options' urn commands q).1 ∧
      InStep Linked (sendAll transport options urn commands p).2
        (sendAll transport' options' urn commands q).2 := by
  induction commands generalizing p q with
  | nil => exact ⟨rfl, hpq⟩
  | cons c rest ih =>
    obtain ⟨hanswer, hafter⟩ := h.send c.sql hpq
    rw [Run.sendAll, Run.sendAll]
    cases hp : Run.send transport options c.sql p with
    | mk answer p' =>
      cases hq : Run.send transport' options' c.sql q with
      | mk answer' q' =>
        rw [hp, hq] at hanswer hafter
        obtain rfl : answer = answer' := hanswer
        obtain ⟨hsession, hlog, hlinked⟩ : InStep Linked p' q' := hafter
        cases answer with
        | error e => exact ⟨rfl, hsession, hlog, hlinked⟩
        | ok =>
          have hnext := ih (p := { p' with
              session := c.commit p'.session
              log := p'.log ++ [⟨urn, (c.commit p'.session).role, c.sql⟩] })
            (q := { q' with
              session := c.commit q'.session
              log := q'.log ++ [⟨urn, (c.commit q'.session).role, c.sql⟩] })
            ⟨by rw [hsession], by rw [hsession, hlog], hlinked⟩
          refine ⟨?_, hnext.2⟩
          dsimp only
          rw [hnext.1, hsession]

theorem runStatements (urn : Urn) (needs : SessionNeeds) (statements : List Statement)
    (hpq : InStep Linked p q) :
    (runStatements transport options urn needs statements p).1 =
        (runStatements transport' options' urn needs statements q).1 ∧
      InStep Linked (runStatements transport options urn needs statements p).2
        (runStatements transport' options' urn needs statements q).2 := by
  induction statements generalizing p q with
  | nil => exact ⟨rfl, hpq⟩
  | cons s rest ih =>
    have hcommands : commands options p.session needs s = commands options' q.session needs s := by
      rw [commands, commands, hpq.session, h.secondaryRoles]
    obtain ⟨hsent, hafter⟩ := h.sendAll urn (commands options p.session needs s) hpq
    rw [Run.runStatements, Run.runStatements, ← hcommands]
    cases hp : Run.sendAll transport options urn (commands options p.session needs s) p with
    | mk sent p' =>
      cases hq : Run.sendAll transport' options' urn (commands options p.session needs s) q with
      | mk sent' q' =>
        rw [hp, hq] at hsent hafter
        obtain rfl : sent = sent' := hsent
        obtain ⟨accepted, refusal⟩ := sent
        cases refusal with
        | some fault => exact ⟨rfl, hafter⟩
        | none =>
          obtain ⟨hlater, hend⟩ := ih hafter
          refine ⟨?_, hend⟩
          dsimp only
          rw [hlater]

theorem runChange (ended : SortedMap Urn Status) (c : Change) (hpq : InStep Linked p q) :
    (runChange transport options ended c p).1 = (runChange transport' options' ended c q).1 ∧
      InStep Linked (runChange transport options ended c p).2
        (runChange transport' options' ended c q).2 := by
  rw [Run.runChange, Run.runChange]
  split
  · exact ⟨rfl, hpq⟩
  · exact ⟨rfl, hpq⟩
  · split
    · exact ⟨rfl, hpq⟩
    · obtain ⟨hsent, hafter⟩ := h.runStatements c.urn c.session c.statements hpq
      refine ⟨?_, hafter⟩
      dsimp only
      rw [hsent]

theorem runLevel (ended : SortedMap Urn Status) (changes : List Change)
    (hpq : InStep Linked p q) :
    (runLevel transport options ended changes p).1 =
        (runLevel transport' options' ended changes q).1 ∧
      InStep Linked (runLevel transport options ended changes p).2
        (runLevel transport' options' ended changes q).2 := by
  induction changes generalizing p q with
  | nil => exact ⟨rfl, hpq⟩
  | cons c rest ih =>
    obtain ⟨houtcome, hafter⟩ := h.runChange ended c hpq
    obtain ⟨houtcomes, hend⟩ := ih hafter
    refine ⟨?_, hend⟩
    rw [Run.runLevel, Run.runLevel]
    dsimp only
    rw [houtcome, houtcomes]

/-- Runs that begin in step have the same outcomes, and end in step. -/
theorem runLevels (ended : SortedMap Urn Status) (levels : List (List Change))
    (hpq : InStep Linked p q) :
    (runLevels transport options ended levels p).1 =
        (runLevels transport' options' ended levels q).1 ∧
      InStep Linked (runLevels transport options ended levels p).2
        (runLevels transport' options' ended levels q).2 := by
  induction levels generalizing ended p q with
  | nil => exact ⟨rfl, hpq⟩
  | cons changes rest ih =>
    obtain ⟨houtcomes, hafter⟩ := h.runLevel ended changes hpq
    rw [Run.runLevels, Run.runLevels]
    dsimp only
    rw [houtcomes]
    obtain ⟨hlater, hend⟩ := ih (note ended (Run.runLevel transport' options' ended changes q).1)
      hafter
    exact ⟨by rw [hlater], hend⟩

end Alike

end Run
end Reconcile
