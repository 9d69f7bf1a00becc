import Reconcile.Proofs.Diff.Containers
import Reconcile.Proofs.Failures
/-!
References that lead nowhere.  Main statement: `unresolved_exists_iff`, when a plan fails for want
of a resource that exists all the same.
-/

namespace Reconcile

open Fallible ResourceGraph

namespace Diff

variable {graph : ResourceGraph} {snapshot : Snapshot} {registry : Registry} {config : Config}

structure IsSystemSchemaOf (db u : Urn) : Prop where
  type : u.type = .schema
  name : u.name.text ∈ systemSchemas
  parent : u.parent? = some db
  database : db.type = .database

/-- A resource that nobody creates: it comes with the account, or with a database that is declared,
there, or the account's own. -/
inductive ComesWith (graph : ResourceGraph) (there : Urn → Prop) (u : Urn) : Prop where
  | account (htype : u.type = .account)
  | systemRole (htype : u.type = .role) (hname : isSystemRole u.name.text)
  | systemDatabase (htype : u.type = .database) (hname : u.name.text = Reconcile.systemDatabase)
  | systemSchema (db : Urn) (hschema : IsSystemSchemaOf db u)
      (hdb : graph.contains db ∨ there db ∨ db.name.text = Reconcile.systemDatabase)

theorem existsImplicitly_of_comesWith {u : Urn}
    (h : ComesWith graph (fun d => snapshot.contains d) u) : existsImplicitly u graph snapshot := by
  unfold existsImplicitly
  cases h with
  | account htype => rw [htype]
  | systemRole htype hname =>
    rw [htype]
    exact hname
  | systemDatabase htype hname =>
    rw [htype]
    exact beq_iff_eq.mpr hname
  | systemSchema db hschema hdb =>
    rw [hschema.type]
    simp only [hschema.parent, Option.any_some, Bool.and_eq_true, Bool.or_eq_true, beq_iff_eq,
      List.contains_iff_mem, hschema.name, true_and, or_assoc]
    exact hdb

theorem exists_of_checkReferences_eq_error {e : Error}
    (h : checkReferences graph snapshot = .error e) :
    ∃ n ∈ graph.nodes, ∃ r ∈ n.external, ¬ isResolved graph snapshot r ∧
      e = .unresolvedReference n.urn r := by
  have hfails : FailsIn (fun e => ∃ n ∈ graph.nodes, ∃ r ∈ n.external,
      ¬ isResolved graph snapshot r ∧ e = .unresolvedReference n.urn r)
      (checkReferences graph snapshot) := by
    refine failsIn_forM fun n hn => ?_
    split
    next r hfind =>
      have hr : r ∈ n.external := List.mem_of_find?_eq_some hfind
      have hnot := List.find?_some hfind
      exact failsIn_error ⟨n, hn, r, hr, by simpa using hnot, rfl⟩
    · exact failsIn_ok ()
  exact hfails e h

/-- A resource of an account whose resources are `held`: one of these, or one that comes with the
account or a database. -/
def ExistsIn (graph : ResourceGraph) (held : List Urn) (u : Urn) : Prop :=
  u ∈ held ∨ ComesWith graph (· ∈ held) u

end Diff

namespace Reconciler

open Diff

variable {r : Reconciler} {declarations : List Declaration} {source : Source}

/-- Only the check of references fails for want of a resource. -/
theorem exists_of_plan_eq_unresolved {u reference : Urn}
    (h : r.plan declarations source = .error (.unresolvedReference u reference)) :
    ∃ graph snapshot, r.buildGraph declarations = .ok graph ∧
      r.fetch graph source = .ok snapshot ∧
      ∃ n ∈ graph.nodes, n.urn = u ∧ reference ∈ n.external ∧
        ¬ isResolved graph snapshot reference := by
  have hbuild : FailsIn (· ≠ .unresolvedReference u reference) (r.buildGraph declarations) := by
    refine failsIn_buildGraph (failsIn_build ?_ ?_ ?_ ?_) ?_ ?_ ?_
    all_goals
      intros
      exact fun heq => nomatch heq
  have hlifecycle : ∀ type, Error.missingLifecycle type ≠ .unresolvedReference u reference :=
    fun _ heq => nomatch heq
  have hfetch (graph : ResourceGraph) :
      FailsIn (· ≠ .unresolvedReference u reference) (r.fetch graph source) :=
    Fetch.failsIn_snapshot hlifecycle fun _ _ _ heq => nomatch heq
  have hrender (urn : Urn) (action : Action) (before after : Option Properties)
      (_ : Lifecycle.Renders urn.type after action) :
      FailsIn (· ≠ .unresolvedReference u reference)
        (Lifecycle.render urn action before after) :=
    Lifecycle.failsIn_render (fun _ _ heq => nomatch heq) (fun _ heq => nomatch heq)
      fun _ _ heq => nomatch heq
  rcases bind_eq_error_iff.mp h with h | ⟨graph, hgraph, h⟩
  · exact absurd rfl (hbuild _ h)
  rcases bind_eq_error_iff.mp h with h | ⟨snapshot, hsnapshot, h⟩
  · exact absurd rfl (hfetch graph _ h)
  refine ⟨graph, snapshot, hgraph, hsnapshot, ?_⟩
  rcases bind_eq_error_iff.mp h with h | ⟨-, -, h⟩
  · obtain ⟨n, hn, d, hd, hnot, heq⟩ := exists_of_checkReferences_eq_error h
    obtain ⟨rfl, rfl⟩ := Error.unresolvedReference.inj heq
    exact ⟨n, hn, rfl, hd, hnot⟩
  rcases bind_eq_error_iff.mp h with h | ⟨changes, -, h⟩
  · exact absurd rfl (failsIn_nodeChanges hrender hlifecycle _ h)
  rcases bind_eq_error_iff.mp h with h | ⟨removals, -, h⟩
  · exact absurd rfl (failsIn_removals hrender hlifecycle _ h)
  · cases h

/-- Where a plan fails for want of a resource other than a grant, that resource exists exactly if
the remote holds it inside a database out of the scope, or if it is a schema that comes with a
database which the remote holds and which the plan did not look for. -/
theorem unresolved_exists_iff {held : List Record} {bulkError : Option FetchError}
    {u reference : Urn}
    (h : r.plan declarations (.static held bulkError) =
      .error (.unresolvedReference u reference))
    (hgrant : ¬ reference.type.isGrant) :
    ∃ graph, r.buildGraph declarations = .ok graph ∧
      (∃ n ∈ graph.nodes, n.urn = u ∧ reference ∈ n.external) ∧
      (ExistsIn graph (held.map Record.urn) reference ↔
        (reference ∈ held.map Record.urn ∧ reference.type.depth ≠ .account ∧
          ¬ r.config.managementScope.contains reference) ∨
        ∃ db ∈ held.map Record.urn, IsSystemSchemaOf db reference ∧
          (∀ v, graph.Wants v → v.type ≠ .database) ∧
          ¬ r.config.allowlist.contains .database ∧ ¬ Fetch.syncsScopedGrants r.config) := by
  obtain ⟨graph, snapshot, hgraph, hsnapshot, n, hn, hurn, hexternal, hnot⟩ :=
    exists_of_plan_eq_unresolved h
  refine ⟨graph, hgraph, ⟨n, hn, hurn, hexternal⟩, ?_⟩
  have hwants : graph.Wants reference := .inr (mem_externalReferences_iff.mpr ⟨n, hn, hexternal⟩)
  have htypes : reference.type ∈ Fetch.types graph r.config :=
    Fetch.mem_types_iff.mpr (.inl ⟨reference, hwants, rfl⟩)
  have hshown {d : Urn} (hd : ¬ d.type.isGrant) := Fetch.contains_static_iff hsnapshot hd
  have hunseen : ¬ snapshot.contains reference := fun hseen =>
    hnot (Bool.or_eq_true_iff.mpr (.inl hseen))
  have hcreated : ¬ ComesWith graph (fun d => snapshot.contains d) reference := fun hcomes =>
    hnot (Bool.or_eq_true_iff.mpr (.inr (existsImplicitly_of_comesWith hcomes)))
  constructor
  · intro hexists
    rcases hexists with hheld | hcomes
    · have hhidden : ¬ (reference.type.depth = .account ∨
          r.config.managementScope.contains reference) := fun hdepth =>
        hunseen ((hshown hgrant).mpr ⟨hheld, htypes, hdepth⟩)
      exact .inl ⟨hheld, not_or.mp hhidden⟩
    cases hcomes with
    | account htype => exact absurd (.account htype) hcreated
    | systemRole htype hname => exact absurd (.systemRole htype hname) hcreated
    | systemDatabase htype hname => exact absurd (.systemDatabase htype hname) hcreated
    | systemSchema db hschema hdb =>
      -- The database is neither declared nor the account's own, so it is held and was not seen.
      have hheld : db ∈ held.map Record.urn := by
        rcases hdb with hdb | hdb | hdb
        · exact absurd (.systemSchema db hschema (.inl hdb)) hcreated
        · exact hdb
        · exact absurd (.systemSchema db hschema (.inr (.inr hdb))) hcreated
      have hdbgrant : ¬ db.type.isGrant := by
        rw [hschema.database]
        exact Bool.false_ne_true
      have hdepth : db.type.depth = .account := by
        rw [hschema.database]
        rfl
      have hlooked : .database ∉ Fetch.types graph r.config := by
        intro hmem
        rw [← hschema.database] at hmem
        have hseen := (hshown hdbgrant).mpr ⟨hheld, hmem, .inl hdepth⟩
        exact hcreated (.systemSchema db hschema (.inr (.inl hseen)))
      rw [Fetch.mem_types_iff, not_or, not_or, not_or] at hlooked
      obtain ⟨hunwanted, hallowed, -, hscoped⟩ := hlooked
      exact .inr ⟨db, hheld, hschema, fun v hv htype => hunwanted ⟨v, hv, htype⟩, hallowed,
        fun hsync => hscoped ⟨.inl rfl, hsync⟩⟩
  · intro hgap
    rcases hgap with ⟨hheld, -, -⟩ | ⟨db, hdb, hschema, -, -, -⟩
    · exact .inl hheld
    · exact .inr (.systemSchema db hschema (.inr (.inl hdb)))

/-! ## The public schema of a database -/

def plain : Reconciler := ⟨.ofAccount "A", .builtin, rfl⟩

def publicUrn : Urn := .ofNames "A" .schema ["DB"] "PUBLIC"

def publicTable : Declaration where
  type := .table
  name := "T"
  container := ["DB", "PUBLIC"]
  properties := SortedMap.empty.insert "columns" (.array [.string "ID NUMBER"])
  references := .empty

def publicTableNode : Node where
  urn := .ofNames "A" .table ["DB", "PUBLIC"] "T"
  properties := publicTable.properties
  dependencies := .empty
  external := .ofList [publicUrn]
  level := 0

theorem buildGraph_publicTable : plain.buildGraph [publicTable] = .ok ⟨[publicTableNode]⟩ := by rfl

theorem isSystemSchemaOf_publicUrn : IsSystemSchemaOf databaseUrn publicUrn :=
  ⟨rfl, by decide, rfl, rfl⟩

theorem refuses_table_without_database :
    plain.plan [publicTable] (.static [] none) =
      .error (.unresolvedReference publicTableNode.urn publicUrn) ∧
    ¬ ExistsIn ⟨[publicTableNode]⟩ [] publicUrn := by
  have hplan : plain.plan [publicTable] (.static [] none) =
      .error (.unresolvedReference publicTableNode.urn publicUrn) := by rfl
  refine ⟨hplan, fun hexists => ?_⟩
  obtain ⟨graph, hgraph, -, hiff⟩ := unresolved_exists_iff hplan Bool.false_ne_true
  obtain rfl := Except.ok.inj (buildGraph_publicTable.symm.trans hgraph)
  rcases hiff.mp hexists with ⟨hheld, -⟩ | ⟨db, hheld, -⟩
  · cases hheld
  · cases hheld

/-- Where the database is there, the table is refused all the same, although the schema is there
too. -/
theorem refuses_table_in_public_schema :
    plain.plan [publicTable] (.static [⟨databaseUrn, .empty⟩] none) =
      .error (.unresolvedReference publicTableNode.urn publicUrn) ∧
    ∃ graph, plain.buildGraph [publicTable] = .ok graph ∧
      ExistsIn graph ([⟨databaseUrn, .empty⟩].map Record.urn) publicUrn := by
  refine ⟨by rfl, _, buildGraph_publicTable, ?_⟩
  exact .inr (.systemSchema databaseUrn isSystemSchemaOf_publicUrn (.inr (.inl List.mem_cons_self)))

end Reconciler
end Reconcile
