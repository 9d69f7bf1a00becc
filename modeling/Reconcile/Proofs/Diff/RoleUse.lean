import Reconcile.Proofs.Diff.Canonical
import Reconcile.Proofs.Diff.Removals
/-!
The roles that run statements, and when they are removed themselves.  Main statements:
`outlivesUses_iff`, when a plan drops no role before the last statement that runs as it, and
`drops_role_before_its_warehouse`, a plan that does.
-/

namespace Reconcile

open Fallible

namespace ResourceType

theorem isSystemRole_defaultRole (t : ResourceType) : isSystemRole t.defaultRole := by
  cases t <;> rfl

end ResourceType

def Record.IsOwnedBy (r : Record) (role : String) : Prop :=
  r.urn.type.hasOwner ∧ r.properties.owner? = some role

def Change.RunsAs (c : Change) (role : String) : Prop := ∃ s ∈ c.statements, s.role = role

/-- Every role that is removed goes after all other changes that it runs a statement of. -/
def Plan.OutlivesUses (p : Plan) : Prop :=
  ∀ d ∈ p.changes, d.action = .remove → d.urn.type = .role →
    ∀ c ∈ p.changes, c ≠ d → c.RunsAs d.urn.name.text → c.level < d.level

theorem Lifecycle.exists_render_remove {urn : Urn} {before : Option Properties}
    {sql : List String} (h : render urn .remove before none = .ok sql) : ∃ s, sql = [s] := by
  have hprivilege {target : String}
      (h : renderPrivilege urn .remove target before none = .ok sql) : ∃ s, sql = [s] := by
    simp only [renderPrivilege, bind_eq_ok, pure_eq_ok] at h
    obtain ⟨privilege, -, grantee, -, rfl⟩ := h
    exact ⟨_, rfl⟩
  rw [render] at h
  split at h
  · cases h
  · exact ⟨_, (Except.ok.inj h).symm⟩
  · exact ⟨_, (Except.ok.inj h).symm⟩
  · simp only [renderGrant, bind_eq_ok] at h
    obtain ⟨on, -, h⟩ := h
    exact hprivilege h
  · simp only [renderScopedGrant, bind_eq_ok] at h
    obtain ⟨_, -, _, -, _, -, h⟩ := h
    exact hprivilege h
  · simp only [renderScopedGrant, bind_eq_ok] at h
    obtain ⟨_, -, _, -, _, -, h⟩ := h
    exact hprivilege h
  · simp only [renderRoleGrant] at h
    split at h
    · cases h
    · exact ⟨_, (Except.ok.inj h).symm⟩
  all_goals exact ⟨_, (Except.ok.inj h).symm⟩

namespace Diff

open Dependency ResourceGraph

variable {graph : ResourceGraph} {snapshot : Snapshot} {registry : Registry} {config : Config}
  {p : Plan}

/-- A removal is one statement, and the role that controls the resource runs it. -/
theorem runsAs_removal_iff {removed : List Urn} {level : Nat} {r : Record} {c : Change}
    (h : removalChange removed level r = .ok c) {role : String} :
    c.RunsAs role ↔ r.urn.type.controller (r.urn.type.canonical r.properties) = role := by
  obtain ⟨statements, hstatements, rfl⟩ := removalChange_eq_ok_iff.mp h
  simp only [removal, bind_eq_ok, pure_eq_ok] at hstatements
  obtain ⟨sql, hsql, rfl⟩ := hstatements
  obtain ⟨s, rfl⟩ := Lifecycle.exists_render_remove hsql
  constructor
  · intro hruns
    obtain ⟨t, ht, hrole⟩ := hruns
    obtain rfl := List.mem_singleton.mp ht
    exact hrole
  · exact fun hrole => ⟨_, List.mem_singleton_self _, hrole⟩

/-- The role of a removed role's name runs the removal of another resource only as its owner, since
all other roles that do are system roles, which stay. -/
theorem runsAs_iff_isOwnedBy {removed : List Urn} {level : Nat} {r : Record} {c : Change}
    (h : removalChange removed level r = .ok c) {u : Urn} (hu : isCandidate graph config u)
    (htype : u.type = .role) : c.RunsAs u.name.text ↔ r.IsOwnedBy u.name.text := by
  have hcustom : ¬ isSystemRole u.name.text := by
    have hmanaged := (isCandidate_iff.mp hu).2.2.2.2
    rw [isSystemManaged] at hmanaged
    simpa [htype, isAccountOwned] using hmanaged
  have hdefault : r.urn.type.defaultRole ≠ u.name.text := fun heq =>
    hcustom (heq ▸ r.urn.type.isSystemRole_defaultRole)
  rw [runsAs_removal_iff h, ResourceType.controller_canonical, Record.IsOwnedBy]
  by_cases howner : r.urn.type.hasOwner
  · cases hp : r.properties.owner? with
    | none => simp [howner, hdefault]
    | some owner => simp [howner]
  · simp [howner, hdefault]

/-- What a plan does for declared resources comes before all that it removes.  A removed role
outlives its uses exactly if it goes later than the removed resources that it owns, by the chains
of removals that have to go first. -/
theorem outlivesUses_iff (h : plan graph snapshot registry config = .ok p) :
    (∀ c ∈ p.changes, c.action ≠ .remove → ∀ d ∈ p.changes, d.action = .remove →
      c.level < d.level) ∧
    ∃ records, candidates graph snapshot registry config = .ok records ∧
      (p.OutlivesUses ↔ ∀ role ∈ records, role.urn.type = .role →
        ∀ r ∈ records, r.urn ≠ role.urn → r.IsOwnedBy role.urn.name.text →
          ∀ m n, IsHeight (GoesAfter (records.map Record.urn)) r.urn m →
            IsHeight (GoesAfter (records.map Record.urn)) role.urn n → m < n) := by
  obtain ⟨records, hrecords, hsplit⟩ := exists_splitsOff h
  have hremoval : ∀ d ∈ p.changes, d.action = .remove →
      ∃ r ∈ records, IsRemovalOf (records.map Record.urn) graph.height r d := fun d hd haction =>
    (hsplit.cases d hd).resolve_left fun hnode => hnode.1 haction
  have hlower : ∀ c ∈ p.changes, c.action ≠ .remove → ∀ d ∈ p.changes, d.action = .remove →
      c.level < d.level := by
    intro c hc hkeep d hd haction
    obtain ⟨r, -, hdof⟩ := hremoval d hd haction
    obtain ⟨n, -, hlevel, -⟩ := hdof.level
    rcases hsplit.cases c hc with ⟨-, hheight⟩ | ⟨r', -, hcof⟩
    · omega
    · exact absurd hcof.action hkeep
  refine ⟨hlower, records, hrecords, fun hplan => ?_, fun hchain => ?_⟩
  · intro role hrole htype r hr hne howned m n hm hn
    obtain ⟨d, hd, hdof⟩ := hsplit.removed role hrole
    obtain ⟨c, hc, hcof⟩ := hsplit.removed r hr
    obtain ⟨n', -, hdlevel, hn'⟩ := hdof.level
    obtain ⟨m', -, hclevel, hm'⟩ := hcof.level
    rw [hdof.urn] at hn'
    rw [hcof.urn] at hm'
    obtain rfl := hm'.unique hm
    obtain rfl := hn'.unique hn
    have hcand := hsplit.candidate role hrole
    have hruns := (runsAs_iff_isOwnedBy hcof.made hcand htype).mpr howned
    have hother : c ≠ d := by
      rintro rfl
      exact hne (hcof.urn.symm.trans hdof.urn)
    rw [← hdof.urn] at htype hruns
    have hlt := hplan d hd hdof.action htype c hc hother hruns
    omega
  · intro d hd hdaction htype c hc hother hruns
    by_cases hcaction : c.action = .remove
    · obtain ⟨role, hrole, hdof⟩ := hremoval d hd hdaction
      obtain ⟨r, hr, hcof⟩ := hremoval c hc hcaction
      obtain ⟨n, -, hdlevel, hn⟩ := hdof.level
      obtain ⟨m, -, hclevel, hm⟩ := hcof.level
      rw [hdof.urn] at hn htype hruns
      rw [hcof.urn] at hm
      have hcand := hsplit.candidate role hrole
      have howned := (runsAs_iff_isOwnedBy hcof.made hcand htype).mp hruns
      have hne : r.urn ≠ role.urn := by
        intro heq
        obtain rfl : r = role := List.inj_on_of_nodup_map hsplit.nodup hr hrole heq
        exact hother (hcof.unique hdof)
      have hlt := hchain role hrole htype r hr hne howned m n hm hn
      omega
    · exact hlower c hc hcaction d hd hdaction

/-! ## A warehouse of a role, both not declared -/

def syncRoles : Config := { account := "A", syncResources := some [.role, .warehouse] }

def strayRole : Record where
  urn := .ofRole "A" "R"
  properties := SortedMap.empty.insert "owner" (.string "USERADMIN")

def strayWarehouse : Record where
  urn := .ofNames "A" .warehouse [] "WH"
  properties := SortedMap.empty.insert "owner" (.string "R")

def strays : Snapshot := .ofRecords [strayRole, strayWarehouse]

theorem candidates_strays :
    candidates ⟨[]⟩ strays .builtin syncRoles = .ok [strayRole, strayWarehouse] := by
  refine candidates_eq_ok_iff.mpr ⟨fun r _ _ => Registry.builtin_require r.urn.type, ?_⟩
  refine (List.filter_eq_self.mpr fun r hr => ?_).symm
  have hr : r ∈ [strayRole, strayWarehouse] := hr
  simp only [List.mem_cons, List.not_mem_nil, or_false] at hr
  rcases hr with rfl | rfl
  all_goals
    rw [isCandidate, isSystemManaged]
    rfl

def endOfRole : Change :=
  removalOf [strayRole.urn, strayWarehouse.urn] 0 strayRole [⟨"USERADMIN", "DROP ROLE R"⟩]

def endOfWarehouse : Change :=
  removalOf [strayRole.urn, strayWarehouse.urn] 0 strayWarehouse [⟨"R", "DROP WAREHOUSE WH"⟩]

theorem plan_strays :
    plan ⟨[]⟩ strays .builtin syncRoles = .ok (.ofChanges [endOfRole, endOfWarehouse]) := by
  have hremovals :
      removals ⟨[]⟩ strays .builtin syncRoles 0 = .ok [endOfRole, endOfWarehouse] :=
    removals_eq_ok_iff.mpr ⟨_, candidates_strays, .cons rfl (.cons rfl .nil)⟩
  exact plan_eq_ok_iff.mpr ⟨rfl, [], rfl, _, hremovals, rfl⟩

theorem not_outlivesUses_strays : ¬ (Plan.ofChanges [endOfRole, endOfWarehouse]).OutlivesUses := by
  intro hplan
  have hruns : endOfWarehouse.RunsAs "R" := ⟨_, List.mem_singleton_self _, rfl⟩
  have hother : endOfWarehouse ≠ endOfRole := by
    intro heq
    have htype := congrArg (fun c => c.urn.type) heq
    cases htype
  exact Nat.lt_irrefl 0 (hplan endOfRole (mem_ofChanges.mpr List.mem_cons_self) rfl rfl
    endOfWarehouse (mem_ofChanges.mpr (List.mem_cons_of_mem _ List.mem_cons_self)) hother hruns)

/-- The role goes on the level on which the removal of its warehouse still runs as it. -/
theorem drops_role_before_its_warehouse :
    ∃ g p, build [] syncRoles = .ok g ∧ plan g strays .builtin syncRoles = .ok p ∧
      ¬ p.OutlivesUses :=
  ⟨⟨[]⟩, _, rfl, plan_strays, not_outlivesUses_strays⟩

/-- The chains of removals do not tell the role from its warehouse. -/
theorem stray_role_is_not_above :
    plan ⟨[]⟩ strays .builtin syncRoles = .ok (.ofChanges [endOfRole, endOfWarehouse]) ∧
    ∃ records, candidates ⟨[]⟩ strays .builtin syncRoles = .ok records ∧
      ¬ ∀ role ∈ records, role.urn.type = .role → ∀ r ∈ records, r.urn ≠ role.urn →
        r.IsOwnedBy role.urn.name.text →
        ∀ m n, IsHeight (GoesAfter (records.map Record.urn)) r.urn m →
          IsHeight (GoesAfter (records.map Record.urn)) role.urn n → m < n := by
  obtain ⟨-, records, hrecords, hiff⟩ := outlivesUses_iff plan_strays
  exact ⟨plan_strays, records, hrecords, fun hchain => not_outlivesUses_strays (hiff.mpr hchain)⟩

end Diff
end Reconcile
