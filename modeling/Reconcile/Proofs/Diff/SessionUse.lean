import Reconcile.Proofs.Declaration.Address
import Reconcile.Proofs.Diff.Canonical
import Reconcile.Proofs.Diff.Containers
import Reconcile.Proofs.Diff.Layered
import Reconcile.Proofs.Graph.Levels
import Reconcile.Proofs.Graph.Origin
/-!
The warehouse and the schema that statements are run with.  Main statement: `createsBeforeUse_iff`,
a schema is always created before it is used, and a warehouse where the tables that are filled on it
depend on it.
-/

namespace Reconcile

open Relation

structure Change.RunsOn (c : Change) (u : Urn) : Prop where
  statements : c.statements ≠ []
  type : u.type = .warehouse
  warehouse : c.session.warehouse = some u.name.text

structure Change.RunsIn (c : Change) (u : Urn) : Prop where
  statements : c.statements ≠ []
  type : u.type = .schema
  schema : ∃ d, u.container = .database d ∧ c.session.schema = some (d.text, u.name.text)

/-- Whatever a plan creates for statements to be run with stands below them, and they depend on
it. -/
def Plan.CreatesBeforeUse (p : Plan) : Prop :=
  ∀ c ∈ p.changes, ∀ a ∈ p.changes, a.action = .add → c.RunsOn a.urn ∨ c.RunsIn a.urn →
    a.level < c.level ∧ TransGen p.DependsOn c.urn a.urn

namespace Diff

open ResourceGraph

variable {declarations : List Declaration} {home config : Config} {graph : ResourceGraph}
  {snapshot : Snapshot} {registry : Registry} {p : Plan} {n : Node} {c : Change} {u v : Urn}

/-! ## Dependencies of a plan and of its graph -/

theorem mem_of_leadsTo (hwf : graph.WellFormed) (h : graph.LeadsTo u v) :
    v ∈ graph.nodes.map Node.urn := by
  obtain ⟨n, hn, -, hv⟩ := h
  obtain ⟨m, hm, rfl, -⟩ := hwf.lower n hn v hv
  exact List.mem_map_of_mem hm

theorem dependsOn_of_leadsTo (hwf : graph.WellFormed)
    (h : plan graph snapshot registry config = .ok p) (hlead : graph.LeadsTo u v) :
    p.DependsOn u v := by
  obtain ⟨m, hm, rfl⟩ := List.mem_map.mp (mem_of_leadsTo hwf hlead)
  obtain ⟨n, hn, rfl, hv⟩ := hlead
  obtain ⟨c, hc, hnc⟩ := exists_nodeChange h hn
  obtain ⟨d, hd, hmd⟩ := exists_nodeChange h hm
  refine ⟨c, hc, urn_of_nodeChange hnc, ?_, urn_of_nodeChange hmd ▸ List.mem_map_of_mem hd⟩
  obtain ⟨step, -, rfl⟩ := nodeChange_eq_ok_iff.mp hnc
  exact hv

theorem leadsTo_of_dependsOn (hwf : graph.WellFormed)
    (h : plan graph snapshot registry config = .ok p) (hu : u ∈ graph.nodes.map Node.urn)
    (hdep : p.DependsOn u v) : graph.LeadsTo u v := by
  obtain ⟨n, hn, rfl⟩ := List.mem_map.mp hu
  obtain ⟨c, hc, hurn, hv, -⟩ := hdep
  obtain ⟨d, hd, hnd⟩ := exists_nodeChange h hn
  obtain rfl := (isLayered_of_plan hwf h).eq_of_urn_eq hd hc
    ((urn_of_nodeChange hnd).trans hurn.symm)
  obtain ⟨step, -, rfl⟩ := nodeChange_eq_ok_iff.mp hnd
  exact ⟨n, hn, rfl, hv⟩

/-- The change of a declared resource depends on exactly the changes of the resources that it leads
to. -/
theorem transGen_dependsOn_iff (hwf : graph.WellFormed)
    (h : plan graph snapshot registry config = .ok p) (hu : u ∈ graph.nodes.map Node.urn) :
    TransGen p.DependsOn u v ↔ TransGen graph.LeadsTo u v := by
  constructor
  · intro hdep
    have hboth : TransGen graph.LeadsTo u v ∧ v ∈ graph.nodes.map Node.urn := by
      induction hdep with
      | single hdep =>
        have hlead := leadsTo_of_dependsOn hwf h hu hdep
        exact ⟨.single hlead, mem_of_leadsTo hwf hlead⟩
      | tail _ hdep ih =>
        have hlead := leadsTo_of_dependsOn hwf h ih.2 hdep
        exact ⟨ih.1.tail hlead, mem_of_leadsTo hwf hlead⟩
    exact hboth.1
  · exact TransGen.mono (fun _ _ => dependsOn_of_leadsTo hwf h) u v

/-! ## What statements are run with -/

theorem query?_canonical_table (properties : Properties) :
    ResourceType.query? (ResourceType.table.canonical properties) =
      ResourceType.query? properties := by
  show Properties.text? (properties.insert "owner" _) "as_" = properties.text? "as_"
  rw [Properties.text?, SortedMap.get?_insert_of_ne _ (by decide), Properties.text?]

theorem warehouse_sessionNeeds_iff {desired : Properties} {name : String} :
    (sessionNeeds u desired config).warehouse = some name ↔
      u.type = .table ∧ (ResourceType.query? desired).isSome ∧
        config.warehouse.map Identifier.normalize = some name := by
  simp only [sessionNeeds, ResourceType.needsWarehouse, Option.ite_none_right_eq_some,
    Bool.and_eq_true, beq_iff_eq, and_assoc]

theorem container_of_schema_sessionNeeds {desired : Properties} {names : String × String}
    (h : (sessionNeeds u desired config).schema = some names) :
    ∃ d s, u.container = .schema d s ∧ names = (d.text, s.text) := by
  simp only [sessionNeeds] at h
  split at h
  next d s hcontainer =>
    split at h
    · exact ⟨d, s, hcontainer, (Option.some.inj h).symm⟩
    · cases h
  · cases h

theorem account_of_mem_nodes (hbuild : build declarations home = .ok graph)
    (hn : n ∈ graph.nodes) : n.urn.account = home.account := by
  obtain ⟨d, -, own, hown, s, hs, hurn, -, -⟩ := exists_ingest_of_mem_nodes hbuild hn
  rw [hurn]
  exact (Declaration.isAddressed_of_ingest hown hs).account

theorem exists_node_of_add (h : plan graph snapshot registry config = .ok p) {a : Change}
    (ha : a ∈ p.changes) (hadd : a.action = .add) : ∃ m ∈ graph.nodes, m.urn = a.urn := by
  rcases change_cases h ha with ⟨m, hm, hma⟩ | ⟨r, -, -, -, _, _, hra⟩
  · exact ⟨m, hm, (urn_of_nodeChange hma).symm⟩
  · obtain ⟨_, -, rfl⟩ := removalChange_eq_ok_iff.mp hra
    cases hadd

theorem parent?_of_runsIn (hbuild : build declarations home = .ok graph) (hn : n ∈ graph.nodes)
    (hnc : nodeChange n (remoteState n.urn graph snapshot) config = .ok c)
    {m : Node} (hm : m ∈ graph.nodes) (hruns : c.RunsIn m.urn) :
    n.urn.parent? = some m.urn := by
  obtain ⟨step, -, rfl⟩ := nodeChange_eq_ok_iff.mp hnc
  obtain ⟨e, hcontainer, hschema⟩ := hruns.schema
  obtain ⟨d, s, hinside, hnames⟩ := container_of_schema_sessionNeeds hschema
  obtain ⟨hd, hs⟩ := Prod.mk.inj hnames
  have haccount : n.urn.account = m.urn.account :=
    (account_of_mem_nodes hbuild hn).trans (account_of_mem_nodes hbuild hm).symm
  have hgrant : ¬ m.urn.type.isGrant := by
    rw [hruns.type]
    exact Bool.false_ne_true
  have hparams := params_of_mem_nodes hbuild hm hgrant
  rw [Urn.parent?, hinside, haccount, ← Identifier.ext hd, ← Identifier.ext hs]
  show some (Urn.mk m.urn.account .schema (.database e) m.urn.name .empty) = some m.urn
  rw [← hruns.type, ← hcontainer, ← hparams]

theorem mem_dependsOn_of_runsIn (hbuild : build declarations home = .ok graph)
    (h : plan graph snapshot registry config = .ok p) (hc : c ∈ p.changes) {a : Change}
    (ha : a ∈ p.changes) (hadd : a.action = .add) (hruns : c.RunsIn a.urn) :
    a.urn ∈ c.dependsOn := by
  have hwf := wellFormed_of_build hbuild
  obtain ⟨m, hm, hma⟩ := exists_node_of_add h ha hadd
  rw [← hma] at hruns ⊢
  rcases change_cases h hc with ⟨n, hn, hnc⟩ | ⟨r, -, -, -, _, _, hrc⟩
  · have hparent := parent?_of_runsIn hbuild hn hnc hm hruns
    obtain ⟨step, -, rfl⟩ := nodeChange_eq_ok_iff.mp hnc
    rcases hwf.parent n hn _ hparent with hdep | hexternal
    · exact hdep
    · exact absurd (List.mem_map_of_mem hm) (hwf.undeclared n hn _ hexternal)
  · obtain ⟨_, -, rfl⟩ := removalChange_eq_ok_iff.mp hrc
    obtain ⟨d, -, hschema⟩ := hruns.schema
    cases hschema

/-- The table of `n` is filled from a query, on the warehouse of `m`. -/
structure FilledOn (config : Config) (n m : Node) : Prop where
  table : n.urn.type = .table
  query : (ResourceType.query? n.properties).isSome
  type : m.urn.type = .warehouse
  name : config.warehouse.map Identifier.normalize = some m.urn.name.text

theorem runsOn_iff (hnc : nodeChange n (remoteState n.urn graph snapshot) config = .ok c)
    {m : Node} : c.RunsOn m.urn ↔ c.statements ≠ [] ∧ FilledOn config n m := by
  obtain ⟨step, -, rfl⟩ := nodeChange_eq_ok_iff.mp hnc
  constructor
  · intro hruns
    obtain ⟨htable, hquery, hname⟩ := warehouse_sessionNeeds_iff.mp hruns.warehouse
    rw [htable, query?_canonical_table] at hquery
    exact ⟨hruns.statements, htable, hquery, hruns.type, hname⟩
  · intro hfilled
    obtain ⟨hstatements, htable, hquery, htype, hname⟩ := hfilled
    refine ⟨hstatements, htype, warehouse_sessionNeeds_iff.mpr ⟨htable, ?_, hname⟩⟩
    rwa [htable, query?_canonical_table]

/-- A schema that a plan adds is created before statements are run in it.  A warehouse that it adds
is created before use exactly if each table that is filled on it leads to it, so that the order is
right where the tables are declared to depend on the warehouse. -/
theorem createsBeforeUse_iff (hbuild : build declarations home = .ok graph)
    (h : plan graph snapshot registry config = .ok p) :
    (∀ c ∈ p.changes, ∀ a ∈ p.changes, a.action = .add → c.RunsIn a.urn →
      a.level < c.level ∧ a.urn ∈ c.dependsOn) ∧
    (p.CreatesBeforeUse ↔
      ∀ n ∈ graph.nodes, ∀ m ∈ graph.nodes, FilledOn config n m →
        (∃ c ∈ p.changes, c.urn = n.urn ∧ c.statements ≠ []) →
        (∃ a ∈ p.changes, a.urn = m.urn ∧ a.action = .add) →
        TransGen graph.LeadsTo n.urn m.urn) := by
  have hwf := wellFormed_of_build hbuild
  have hlayered := isLayered_of_plan hwf h
  have hin : ∀ c ∈ p.changes, ∀ a ∈ p.changes, a.action = .add → c.RunsIn a.urn →
      a.level < c.level ∧ a.urn ∈ c.dependsOn := by
    intro c hc a ha hadd hruns
    have hdep := mem_dependsOn_of_runsIn hbuild h hc ha hadd hruns
    exact ⟨hlayered.lower c hc a ha hdep, hdep⟩
  refine ⟨hin, fun hcreates n hn m hm hfilled hc ha => ?_, fun hleads c hc a ha hadd hneeds => ?_⟩
  · obtain ⟨c, hc, hcurn, hstatements⟩ := hc
    obtain ⟨a, ha, haurn, hadd⟩ := ha
    obtain ⟨e, he, hne⟩ := exists_nodeChange h hn
    obtain rfl := hlayered.eq_of_urn_eq he hc ((urn_of_nodeChange hne).trans hcurn.symm)
    have hruns : e.RunsOn a.urn := haurn ▸ (runsOn_iff hne).mpr ⟨hstatements, hfilled⟩
    have hdep := (hcreates e he a ha hadd (.inl hruns)).2
    rw [hcurn, haurn] at hdep
    exact (transGen_dependsOn_iff hwf h (List.mem_map_of_mem hn)).mp hdep
  · rcases hneeds with hruns | hruns
    · obtain ⟨m, hm, hma⟩ := exists_node_of_add h ha hadd
      rcases change_cases h hc with ⟨n, hn, hnc⟩ | ⟨r, -, -, -, _, _, hrc⟩
      · have hurn := urn_of_nodeChange hnc
        obtain ⟨hstatements, hfilled⟩ := (runsOn_iff hnc).mp (hma ▸ hruns)
        have hlead := hleads n hn m hm hfilled ⟨c, hc, hurn, hstatements⟩ ⟨a, ha, hma.symm, hadd⟩
        have hdep : TransGen p.DependsOn c.urn a.urn := by
          rw [hurn, ← hma]
          exact (transGen_dependsOn_iff hwf h (List.mem_map_of_mem hn)).mpr hlead
        exact ⟨hlayered.level_lt hc hdep ha rfl, hdep⟩
      · obtain ⟨_, -, rfl⟩ := removalChange_eq_ok_iff.mp hrc
        exact nomatch hruns.warehouse
    · obtain ⟨hlevel, hdep⟩ := hin c hc a ha hadd hruns
      exact ⟨hlevel, .single ⟨c, hc, rfl, hdep, List.mem_map_of_mem ha⟩⟩

/-! ## A table that is filled on a warehouse of the same plan -/

def loadsOnWarehouse : Config := { account := "A", warehouse := some "wh" }

def loadingUrn : Urn := .ofNames "A" .warehouse [] "wh"

def loadingWarehouse : Declaration where
  type := .warehouse
  name := "wh"
  container := []
  properties := .empty
  references := .empty

def query : Properties := SortedMap.empty.insert "as_" (.string "SELECT 1 AS X")

def filledTable (references : SortedMap String Reference) : Declaration where
  type := .table
  name := "T"
  container := ["DB", "S"]
  properties := query
  references

def loadingNode : Node where
  urn := loadingUrn
  properties := .empty
  dependencies := .empty
  external := .empty
  level := 0

def filledNode (dependencies : SortedSet Urn) (level : Nat) : Node where
  urn := tableUrn
  properties := query
  dependencies
  external := .ofList [schemaUrn]
  level

def schemaReported : Snapshot := .ofRecords [⟨databaseUrn, .empty⟩, ⟨schemaUrn, .empty⟩]

def addsWarehouse : Change :=
  changeOf loadingNode none loadsOnWarehouse
    { action := .add, statements := [⟨"SYSADMIN", "CREATE WAREHOUSE WH"⟩] }

def addsTable (dependencies : SortedSet Urn) (level : Nat) : Change :=
  changeOf (filledNode dependencies level) none loadsOnWarehouse
    { action := .add, statements := [⟨"SYSADMIN", "CREATE TABLE DB.S.T AS SELECT 1 AS X"⟩] }

/-- The warehouse that a table is filled on is created beside the table, not before it. -/
theorem fills_table_beside_its_warehouse :
    ∃ g p, build [loadingWarehouse, filledTable .empty] loadsOnWarehouse = .ok g ∧
      plan g schemaReported .builtin loadsOnWarehouse = .ok p ∧ ¬ p.CreatesBeforeUse := by
  refine ⟨⟨[loadingNode, filledNode .empty 0]⟩,
    .ofChanges [addsWarehouse, addsTable .empty 0], by rfl, by rfl, fun hcreates => ?_⟩
  have hwarehouse : addsWarehouse ∈
      (Plan.ofChanges [addsWarehouse, addsTable .empty 0]).changes :=
    mem_ofChanges.mpr (by simp)
  have htable : addsTable .empty 0 ∈
      (Plan.ofChanges [addsWarehouse, addsTable .empty 0]).changes :=
    mem_ofChanges.mpr (by simp)
  have hruns : (addsTable .empty 0).RunsOn addsWarehouse.urn :=
    ⟨List.cons_ne_nil _ _, rfl, rfl⟩
  exact Nat.lt_irrefl 0 (hcreates _ htable _ hwarehouse rfl (.inl hruns)).1

def namesWarehouse : SortedMap String Reference :=
  SortedMap.empty.insert "warehouse" (.named .warehouse "wh" [])

theorem build_namesWarehouse :
    build [loadingWarehouse, filledTable namesWarehouse] loadsOnWarehouse =
      .ok ⟨[loadingNode, filledNode (.ofList [loadingUrn]) 1]⟩ := by rfl

theorem plan_namesWarehouse :
    plan ⟨[loadingNode, filledNode (.ofList [loadingUrn]) 1]⟩ schemaReported .builtin
        loadsOnWarehouse =
      .ok (.ofChanges [addsWarehouse, addsTable (.ofList [loadingUrn]) 1]) := by rfl

theorem createsBeforeUse_namesWarehouse :
    Plan.CreatesBeforeUse (.ofChanges [addsWarehouse, addsTable (.ofList [loadingUrn]) 1]) := by
  refine (createsBeforeUse_iff build_namesWarehouse plan_namesWarehouse).2.mpr ?_
  intro n hn m hm hfilled _ _
  have hn : n = loadingNode ∨ n = filledNode (.ofList [loadingUrn]) 1 := by simpa using hn
  have hm : m = loadingNode ∨ m = filledNode (.ofList [loadingUrn]) 1 := by simpa using hm
  rcases hn with rfl | rfl
  · cases hfilled.table
  rcases hm with rfl | rfl
  · exact .single ⟨_, List.mem_cons_of_mem _ List.mem_cons_self, rfl, List.mem_cons_self⟩
  · cases hfilled.type

end Diff
end Reconcile
