import Reconcile.Proofs.Remote.Listing
import Reconcile.Reconciler
/-!
What each part of planning can fail with.  A part is taken with any property `P` of errors that
holds of its own kinds of errors; then whatever it fails with has the property.
-/

namespace Reconcile

open Fallible

variable {P : Error → Prop}

/-! ## Declarations -/

section

variable (hurn : ∀ fault, P (.invalidUrn fault))

include hurn

theorem Urn.failsIn_readType (s : List Char) : FailsIn P (readType s) := by
  rw [readType]
  split
  · exact failsIn_ok _
  · exact failsIn_error (hurn _)

theorem Urn.failsIn_readName (account : String) (type : ResourceType) (s : List Char) :
    FailsIn P (readName account type s) := by
  refine FailsIn.bind ?_ fun urn => FailsIn.bind ?_ fun params => failsIn_ok _
  · simp only [readPath]
    split
    · exact failsIn_error (hurn _)
    · exact failsIn_ok _
  · refine FailsIn.bind (failsIn_mapM fun pair _ => ?_) fun pairs => failsIn_ok _
    rw [readParam]
    split
    · exact failsIn_error (hurn _)
    split
    · exact failsIn_error (hurn _)
    · exact failsIn_ok _

theorem Urn.failsIn_ofReference (account reference : String) :
    FailsIn P (ofReference account reference) := by
  rw [ofReference]
  split
  · exact failsIn_error (hurn _)
  · refine (failsIn_readType hurn _).bind fun type => ?_
    exact failsIn_readName hurn _ _ _

end

namespace Declaration

variable {d : Declaration} {config : Config} {account : String}

section

variable (hdeclaration : ∀ name fault, P (.invalidDeclaration name fault))

include hdeclaration

theorem failsIn_fail {α : Type} (fault : DeclarationFault) :
    FailsIn P (d.fail fault : Except Error α) := failsIn_error (hdeclaration _ _)

theorem failsIn_resolve (r : Reference) : FailsIn P (r.resolve account) := by
  cases r with
  | urn u => exact failsIn_ok u
  | named type name container =>
    rw [Reference.resolve]
    split
    · exact failsIn_ok _
    split
    · exact failsIn_error (hdeclaration _ _)
    · exact failsIn_ok _

theorem failsIn_requiredReference (key : String) :
    FailsIn P (d.requiredReference account key) := by
  rw [requiredReference]
  split
  · exact failsIn_resolve hdeclaration _
  · exact failsIn_fail hdeclaration _

theorem failsIn_checkGrantee (grantee : Urn) (allowed : List ResourceType) :
    FailsIn P (d.checkGrantee grantee allowed) := by
  rw [checkGrantee]
  split
  · exact failsIn_ok ()
  · exact failsIn_fail hdeclaration _

theorem failsIn_grantOption : FailsIn P d.grantOption := by
  rw [grantOption]
  split
  · exact failsIn_ok false
  · exact failsIn_ok false
  · exact failsIn_ok _
  · exact failsIn_fail hdeclaration _

theorem failsIn_privileges (type : ResourceType) : FailsIn P (d.privileges type) := by
  rw [privileges, Privilege.expand]
  exact failsIn_mapError fun _ => hdeclaration _ _

theorem failsIn_ingestGrant : FailsIn P (d.ingestGrant account) := by
  refine (failsIn_requiredReference hdeclaration _).bind fun on => ?_
  refine (failsIn_requiredReference hdeclaration _).bind fun grantee => ?_
  refine (failsIn_checkGrantee hdeclaration _ _).bind fun _ => ?_
  refine (failsIn_grantOption hdeclaration).bind fun option => ?_
  exact (failsIn_privileges hdeclaration _).bind fun privileges => failsIn_ok _

theorem failsIn_ingestRoleGrant : FailsIn P (d.ingestRoleGrant account) := by
  refine (failsIn_requiredReference hdeclaration _).bind fun role => ?_
  refine (failsIn_requiredReference hdeclaration _).bind fun grantee => ?_
  split
  · exact failsIn_error (hdeclaration _ _)
  · exact (failsIn_checkGrantee hdeclaration _ _).bind fun _ => failsIn_ok _

theorem failsIn_resolvedContainer : FailsIn P (d.resolvedContainer config) := by
  simp only [resolvedContainer]
  split
  · exact failsIn_fail hdeclaration _
  split
  · exact failsIn_ok _
  · exact failsIn_fail hdeclaration _

theorem failsIn_ingestObject : FailsIn P (d.ingestObject config) := by
  unfold ingestObject
  split
  · exact failsIn_error (hdeclaration _ _)
  refine (failsIn_resolvedContainer hdeclaration).bind fun container => ?_
  refine (failsIn_mapM fun r _ => failsIn_resolve hdeclaration r).bind fun references => ?_
  exact failsIn_ok _

variable (hurn : ∀ fault, P (.invalidUrn fault))

include hurn

theorem failsIn_targetType : FailsIn P d.targetType := by
  rw [targetType]
  split
  · exact Urn.failsIn_readType hurn _
  · exact failsIn_fail hdeclaration _

theorem failsIn_ingestScopedGrant : FailsIn P (d.ingestScopedGrant account) := by
  refine (failsIn_requiredReference hdeclaration _).bind fun container => ?_
  split
  · exact failsIn_error (hdeclaration _ _)
  refine (failsIn_requiredReference hdeclaration _).bind fun grantee => ?_
  refine (failsIn_checkGrantee hdeclaration _ _).bind fun _ => ?_
  refine (failsIn_targetType hdeclaration hurn).bind fun type => ?_
  split
  · exact failsIn_error (hdeclaration _ _)
  refine (failsIn_grantOption hdeclaration).bind fun option => ?_
  exact (failsIn_privileges hdeclaration _).bind fun privileges => failsIn_ok _

theorem failsIn_ingest : FailsIn P (d.ingest config) := by
  rw [ingest]
  split
  · exact failsIn_ingestGrant hdeclaration
  · exact failsIn_ingestScopedGrant hdeclaration hurn
  · exact failsIn_ingestScopedGrant hdeclaration hurn
  · exact failsIn_ingestRoleGrant hdeclaration
  · exact failsIn_ingestObject hdeclaration

end

end Declaration

namespace ResourceGraph

variable {declarations : List Declaration} {config : Config} {specs : List Spec}

theorem failsIn_addSpec (hconflict : ∀ u, P (.conflictingDeclaration u)) (s : Spec) :
    FailsIn P (addSpec specs s) := by
  rw [addSpec]
  split
  · exact failsIn_ok _
  split
  · exact failsIn_ok _
  · exact failsIn_error (hconflict _)

theorem failsIn_ofSpecs (hcycle : ∀ cycles, P (.cycleDetected cycles)) :
    FailsIn P (ofSpecs specs) := by
  intro e he
  rw [ofSpecs_eq_error he]
  exact hcycle _

theorem failsIn_build (hdeclaration : ∀ name fault, P (.invalidDeclaration name fault))
    (hurn : ∀ fault, P (.invalidUrn fault)) (hconflict : ∀ u, P (.conflictingDeclaration u))
    (hcycle : ∀ cycles, P (.cycleDetected cycles)) : FailsIn P (build declarations config) := by
  refine FailsIn.bind ?_ fun specs => failsIn_ofSpecs hcycle
  refine failsIn_foldlM (fun specs d _ => ?_) []
  refine (Declaration.failsIn_ingest hdeclaration hurn).bind fun own => ?_
  exact failsIn_foldlM (fun specs s _ => failsIn_addSpec hconflict s) specs

end ResourceGraph

/-! ## Reading the remote -/

section

variable (hlifecycle : ∀ type, P (.missingLifecycle type))

include hlifecycle

theorem Registry.failsIn_require {registry : Registry} (type : ResourceType) :
    FailsIn P (registry.require type) := by
  rw [require]
  split
  · exact failsIn_ok ()
  · exact failsIn_error (hlifecycle _)

variable (hfetch : ∀ type place message, P (.remoteFetch type place message))

include hfetch

namespace Fetch

variable {source : Source} {registry : Registry} {scope : FetchScope} {type : ResourceType}

omit hlifecycle in
theorem failsIn_records {place : Option Urn} {call : Call} :
    FailsIn P (outcome (records source type place call)) := by
  rw [outcome_records]
  exact failsIn_mapError fun e => hfetch _ _ _

omit hlifecycle in
theorem failsIn_merged {calls : Urn → Call} {places : List Urn} :
    FailsIn P (outcome (merged source type calls places)) := by
  rw [merged, outcome_bind _ fun _ => steady_pure _,
    outcome_foldlM fun _ _ => steady_records.bind fun _ => steady_pure _]
  refine FailsIn.bind (failsIn_foldlM (fun s place _ => ?_) _) fun all => failsIn_ok _
  rw [outcome_bind _ fun _ => steady_pure _]
  exact (failsIn_records hfetch).bind fun rs => failsIn_ok _

omit hlifecycle in
theorem failsIn_grantsByGrantee : FailsIn P (outcome (grantsByGrantee source scope)) := by
  rw [grantsByGrantee, outcome_bind _ fun _ => steady_pure _]
  exact (failsIn_merged hfetch).bind fun rs => failsIn_ok _

omit hlifecycle in
theorem failsIn_objectGrants : FailsIn P (outcome (objectGrants source scope)) := by
  rw [objectGrants]
  cases scope.listing with
  | perObject => exact failsIn_grantsByGrantee hfetch
  | bulk =>
    cases hanswer : source .grantsBulk with
    | ok all =>
      rw [outcome_ask_bind (by rw [hanswer]; exact steady_pure _), hanswer]
      exact failsIn_ok _
    | error e =>
      rw [outcome_ask_bind (by rw [hanswer]; exact steady_afterClosed), hanswer]
      show FailsIn P (outcome (if _ then _ else _))
      split
      · exact failsIn_grantsByGrantee hfetch
      · exact failsIn_error (hfetch _ _ _)

omit hlifecycle in
theorem failsIn_listing : FailsIn P (outcome (listing source scope type)) := by
  have hscoped : FailsIn P (outcome (scopedGrants source type scope)) := by
    rw [scopedGrants, outcome_bind _ fun _ => steady_pure _]
    exact (failsIn_merged hfetch).bind fun rs => failsIn_ok _
  unfold listing
  split
  · exact failsIn_objectGrants hfetch
  · exact hscoped
  · exact hscoped
  · exact failsIn_records hfetch

theorem failsIn_addListings {types : List ResourceType} {s : Snapshot} :
    FailsIn P (outcome (addListings registry source scope types s)) := by
  rw [addListings, outcome_foldlM fun _ _ => steady_require.bind fun _ =>
    steady_listing.bind fun _ => steady_pure _]
  refine failsIn_foldlM (fun s type _ => ?_) s
  rw [outcome_bind _ fun _ => steady_listing.bind fun _ => steady_pure _, outcome_require]
  refine (Registry.failsIn_require hlifecycle type).bind fun _ => ?_
  rw [outcome_bind _ fun _ => steady_pure _]
  exact (failsIn_listing hfetch).bind fun rs => failsIn_ok _

theorem failsIn_snapshot {graph : ResourceGraph} {config : Config} :
    FailsIn P (snapshot graph registry config source).1 := by
  show FailsIn P (outcome (read graph registry config source))
  rw [read, outcome_bind _ fun _ => steady_addListings]
  exact (failsIn_addListings hlifecycle hfetch).bind fun objects =>
    failsIn_addListings hlifecycle hfetch

end Fetch

end

/-! ## Statements -/

namespace Lifecycle

/-- Whether a type has statements for an action.  The account is never dropped, and there is nothing
to alter about the grant of a role. -/
def Renders (type : ResourceType) (after : Option Properties) : Action → Prop
  | .add => after.isSome
  | .change => after.isSome ∧ type ≠ .roleGrant
  | .remove => type ≠ .account
  | .replace | .transfer | .noop => False

variable {urn : Urn} {action : Action} {before after : Option Properties}

section

variable (hdeclaration : ∀ name fault, P (.invalidDeclaration name fault))

include hdeclaration

theorem failsIn_column (v : Json) : FailsIn P (column urn v) := by
  unfold column
  split
  · exact failsIn_ok _
  · split
    · exact failsIn_error (hdeclaration _ _)
    · exact failsIn_error (hdeclaration _ _)
    · exact failsIn_ok _
  · exact failsIn_error (hdeclaration _ _)

theorem failsIn_createTable {properties : Properties} :
    FailsIn P (createTable urn properties) := by
  simp only [createTable]
  split
  · exact failsIn_ok _
  · refine FailsIn.bind ?_ fun columns => failsIn_ok _
    rw [columns]
    split
    · exact failsIn_mapM fun v _ => failsIn_column hdeclaration v
    · exact failsIn_error (hdeclaration _ _)

theorem failsIn_createView {properties : Properties} : FailsIn P (createView urn properties) := by
  rw [createView]
  split
  · exact failsIn_ok _
  · exact failsIn_error (hdeclaration _ _)

end

section

variable (hurn : ∀ fault, P (.invalidUrn fault))

include hurn

theorem failsIn_param (key : String) : FailsIn P (param urn key) := by
  rw [param]
  split
  · exact failsIn_ok _
  · exact failsIn_error (hurn _)

theorem failsIn_referenced (key : String) : FailsIn P (referenced urn key) :=
  (failsIn_param hurn key).bind fun _ => Urn.failsIn_ofReference hurn _ _

variable (hexecution : ¬ Renders urn.type after action → ∀ fault, P (.execution urn fault))

include hexecution

theorem failsIn_renderPrivilege (target : String) :
    FailsIn P (renderPrivilege urn action target before after) := by
  refine (failsIn_param hurn _).bind fun privilege => ?_
  refine (failsIn_referenced hurn _).bind fun grantee => ?_
  cases action with
  | add => exact failsIn_ok _
  | change =>
    show FailsIn P (if _ then _ else _)
    split
    · exact failsIn_ok _
    · exact failsIn_ok _
  | remove => exact failsIn_ok _
  | _ => exact failsIn_error (hexecution id _)

theorem failsIn_renderScopedGrant (keyword : String) :
    FailsIn P (renderScopedGrant keyword urn action before after) := by
  refine (failsIn_param hurn _).bind fun name => ?_
  refine (Urn.failsIn_readType hurn _).bind fun type => ?_
  refine (failsIn_referenced hurn _).bind fun container => ?_
  exact failsIn_renderPrivilege hurn hexecution _

theorem failsIn_renderRoleGrant (htype : urn.type = .roleGrant) :
    FailsIn P (renderRoleGrant urn action) := by
  unfold renderRoleGrant
  split
  · exact failsIn_error (hurn _)
  cases action with
  | add => exact failsIn_ok _
  | remove => exact failsIn_ok _
  | change => exact failsIn_error (hexecution (fun h => h.2 htype) _)
  | _ => exact failsIn_error (hexecution id _)

end

section

variable (hexecution : ¬ Renders urn.type after action → ∀ fault, P (.execution urn fault))

include hexecution

theorem failsIn_renderAccount (htype : urn.type = .account) :
    FailsIn P (renderAccount urn action before after) := by
  cases action with
  | add => exact failsIn_ok _
  | change =>
    cases after with
    | some after => exact failsIn_ok _
    | none => exact failsIn_error (hexecution (fun h => nomatch h.1) _)
  | remove => exact failsIn_error (hexecution (fun h => h htype) _)
  | _ => exact failsIn_error (hexecution id _)

theorem failsIn_renderObject : FailsIn P (renderObject urn action before after) := by
  cases action with
  | add =>
    cases after with
    | some after => exact failsIn_ok _
    | none => exact failsIn_error (hexecution (fun h => nomatch h) _)
  | change =>
    cases after with
    | some after => exact failsIn_ok _
    | none => exact failsIn_error (hexecution (fun h => nomatch h.1) _)
  | remove => exact failsIn_ok _
  | _ => exact failsIn_error (hexecution id _)

variable (hdeclaration : ∀ name fault, P (.invalidDeclaration name fault))

include hdeclaration

theorem failsIn_renderTable : FailsIn P (renderTable urn action before after) := by
  cases action with
  | add =>
    cases after with
    | some after => exact (failsIn_createTable hdeclaration).bind fun _ => failsIn_ok _
    | none => exact failsIn_error (hexecution (fun h => nomatch h) _)
  | change =>
    cases after with
    | some after => exact failsIn_ok _
    | none => exact failsIn_error (hexecution (fun h => nomatch h.1) _)
  | remove => exact failsIn_ok _
  | _ => exact failsIn_error (hexecution id _)

theorem failsIn_renderView : FailsIn P (renderView urn action before after) := by
  cases action with
  | add =>
    cases after with
    | some after => exact (failsIn_createView hdeclaration).bind fun _ => failsIn_ok _
    | none => exact failsIn_error (hexecution (fun h => nomatch h) _)
  | change =>
    cases after with
    | some after => exact failsIn_ok _
    | none => exact failsIn_error (hexecution (fun h => nomatch h.1) _)
  | remove => exact failsIn_ok _
  | _ => exact failsIn_error (hexecution id _)

end

/-- Statements are not made for want of properties, of a readable address, or of an action that the
type has statements for. -/
theorem failsIn_render (hdeclaration : ∀ name fault, P (.invalidDeclaration name fault))
    (hurn : ∀ fault, P (.invalidUrn fault))
    (hexecution : ¬ Renders urn.type after action → ∀ fault, P (.execution urn fault)) :
    FailsIn P (render urn action before after) := by
  unfold render
  split
  next htype => exact failsIn_renderAccount hexecution htype
  · exact failsIn_renderTable hexecution hdeclaration
  · exact failsIn_renderView hexecution hdeclaration
  · exact (failsIn_referenced hurn _).bind fun _ => failsIn_renderPrivilege hurn hexecution _
  · exact failsIn_renderScopedGrant hurn hexecution _
  · exact failsIn_renderScopedGrant hurn hexecution _
  next htype => exact failsIn_renderRoleGrant hurn hexecution htype
  all_goals exact failsIn_renderObject hexecution

theorem failsIn_render_of_renders
    (hdeclaration : ∀ name fault, P (.invalidDeclaration name fault))
    (hurn : ∀ fault, P (.invalidUrn fault)) (h : Renders urn.type after action) :
    FailsIn P (render urn action before after) :=
  failsIn_render hdeclaration hurn fun hnot => absurd h hnot

end Lifecycle

/-! ## Changes -/

namespace Diff

section

variable {urn : Urn} {desired current : Properties} {config : Config}
  (hrender : ∀ urn action before after, Lifecycle.Renders urn.type after action →
    FailsIn P (Lifecycle.render urn action before after))

include hrender

theorem failsIn_creation : FailsIn P (creation urn desired) :=
  (hrender urn .add none (some desired) rfl).bind fun _ => failsIn_ok _

theorem failsIn_removal (haccount : urn.type ≠ .account) : FailsIn P (removal urn current) :=
  (hrender urn .remove (some current) none haccount).bind fun _ => failsIn_ok _

/-- The fields of the account can all be altered, and those of the grant of a role cannot, so that
the one is never replaced and the other never altered. -/
theorem failsIn_update : FailsIn P (update urn desired current) := by
  unfold update
  dsimp only
  split
  · exact failsIn_ok _
  next hnone =>
  split
  next himmutable =>
    obtain ⟨field, -, hfield⟩ := List.any_eq_true.mp himmutable
    have haccount : urn.type ≠ .account := by
      intro htype
      rw [htype] at hfield
      exact Bool.false_ne_true hfield
    refine (failsIn_removal hrender haccount).bind fun _ => ?_
    exact (failsIn_creation hrender).bind fun _ => failsIn_ok _
  next hmutable =>
  split
  · split
    · exact failsIn_ok _
    · exact failsIn_ok _
  next hchanged =>
    have hroleGrant : urn.type ≠ .roleGrant := by
      intro htype
      obtain ⟨field, hfield⟩ := List.exists_mem_of_ne_nil _
        fun hnil => hchanged (List.isEmpty_iff.mpr hnil)
      exact hmutable (List.any_eq_true.mpr ⟨field, hfield, by rw [htype]; rfl⟩)
    exact (hrender urn .change (some current) (some desired) ⟨rfl, hroleGrant⟩).bind
      fun _ => failsIn_ok _

theorem failsIn_nodeChange {node : Node} {remote : Option Properties} :
    FailsIn P (nodeChange node remote config) := by
  refine FailsIn.bind ?_ fun step => failsIn_ok _
  cases currentState node.urn.type remote with
  | none => exact (failsIn_creation hrender).bind fun _ => failsIn_ok _
  | some current => exact failsIn_update hrender

variable (hlifecycle : ∀ type, P (.missingLifecycle type)) {graph : ResourceGraph}
  {snapshot : Snapshot} {registry : Registry}

include hlifecycle

theorem failsIn_nodeChanges : FailsIn P (nodeChanges graph snapshot registry config) := by
  refine failsIn_mapM fun node _ => ?_
  exact (Registry.failsIn_require hlifecycle _).bind fun _ => failsIn_nodeChange hrender

theorem failsIn_removals {base : Nat} :
    FailsIn P (removals graph snapshot registry config base) := by
  intro e he
  rcases bind_eq_error_iff.mp he with he | ⟨records, hrecords, he⟩
  · revert he
    refine FailsIn.bind ?_ (fun _ => failsIn_ok _) e
    exact failsIn_forM fun r _ => Registry.failsIn_require hlifecycle _
  · refine failsIn_mapM (fun r hr => ?_) e he
    have hsupports := ((mem_candidates_iff hrecords).mp hr).2.2
    exact (failsIn_removal hrender (bne_iff_ne.mp hsupports)).bind fun _ => failsIn_ok _

end

end Diff

/-! ## The whole graph -/

namespace Reconciler

theorem failsIn_buildGraph {r : Reconciler} {declarations : List Declaration}
    (hbuild : FailsIn P (ResourceGraph.build declarations r.config))
    (hscope : ∀ scope urns, P (.nonConforming scope urns))
    (hedition : ∀ urn feature, P (.wrongEdition urn feature))
    (hlifecycle : ∀ type, P (.missingLifecycle type)) :
    FailsIn P (r.buildGraph declarations) := by
  refine hbuild.bind fun graph => FailsIn.bind ?_ fun _ => FailsIn.bind ?_ fun _ => failsIn_ok _
  · simp only [checkScope]
    split
    · exact failsIn_ok ()
    · exact failsIn_error (hscope _ _)
  · rw [checkEdition]
    split
    · refine failsIn_forM fun node _ => ?_
      refine (Registry.failsIn_require hlifecycle _).bind fun _ => ?_
      split
      · exact failsIn_error (hedition _ _)
      · exact failsIn_ok _
    · exact failsIn_ok ()

end Reconciler

end Reconcile
