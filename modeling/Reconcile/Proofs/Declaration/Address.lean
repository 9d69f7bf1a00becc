import Reconcile.Proofs.Declaration.Ingest
import Reconcile.Proofs.Urn.RoundTrip
/-!
Addresses of declared resources as text.  Main statements: `hasGuardedNames_ofNames`, well-formed
names are guarded, and `parse_text_iff_of_ingest`, which declared resources the text of their
address leads back to.
-/

namespace Reconcile

open Fallible

namespace Urn

variable {u : Urn} {params : SortedMap String String} {key value : String}

theorem HasGuardedKeys.insert (h : HasGuardedKeys params)
    (hkey : '&' ∉ key.toList ∧ '=' ∉ key.toList) (value : String) :
    HasGuardedKeys (params.insert key value) := by
  intro e he
  rcases SortedMap.mem_place he with rfl | he
  · exact hkey
  · exact h e he

theorem hasGuardedKeys_empty : HasGuardedKeys .empty := fun _ h => nomatch h

theorem hasGuardedNames_ofNames {account name : String} {type : ResourceType}
    {container : List String} (hname : Identifier.IsWellFormed name)
    (hcontainer : ∀ n ∈ container, Identifier.IsWellFormed n)
    (hlength : container.length ≤ 2) : (ofNames account type container name).HasGuardedNames where
  container a ha := by
    have ha : a ∈ (Container.ofNames container).names := ha
    rw [Container.names_ofNames hlength] at ha
    obtain ⟨n, hn, rfl⟩ := List.mem_map.mp ha
    exact ⟨(hcontainer n hn).isGuarded, (hcontainer n hn).isClosed⟩
  name := hname.isGuarded
  closed _ := hname.isClosed

end Urn

namespace Declaration

variable {d : Declaration} {config : Config} {account : String} {specs : List Spec} {s : Spec}

theorem length_of_resolvedContainer {names : List String}
    (h : d.resolvedContainer config = .ok names) : names.length = d.type.pathLength := by
  rw [resolvedContainer] at h
  split at h
  · cases h
  next hdeep =>
    split at h
    next filled hfilled =>
      obtain rfl := Except.ok.inj h
      have hlength := (Lists.mapM_eq_some_iff.mp hfilled).length_eq
      have hle := d.type.pathLength_le
      rw [List.length_append, ← hlength, List.length_take, Config.defaultContainer]
      simp only [List.length_cons, List.length_nil]
      omega
    · cases h

/-- The address of a specification has the account of the run, a name for each container that its
type needs, and parameters with plain keys. -/
structure IsAddressed (account : String) (u : Urn) : Prop where
  account : u.account = account
  depth : u.container.names.length = u.type.pathLength
  keys : Urn.HasGuardedKeys u.params

theorem isAddressed_of_isGrantSpec (h : IsGrantSpec account s) : IsAddressed account s.urn := by
  cases h with
  | onObject privilege on grantee option hgrantee =>
    refine ⟨rfl, rfl, ?_⟩
    exact ((Urn.hasGuardedKeys_empty.insert (by decide) _).insert (by decide) _).insert
      (by decide) _
  | onObjects type privilege target container grantee option htype hcontainer hgrantee =>
    refine ⟨rfl, ?_, ?_⟩
    · show 0 = type.pathLength
      rcases htype with rfl | rfl
      · rfl
      · rfl
    · exact (((Urn.hasGuardedKeys_empty.insert (by decide) _).insert (by decide) _).insert
        (by decide) _).insert (by decide) _
  | ofRole role grantee hrole hgrantee =>
    refine ⟨rfl, rfl, Urn.hasGuardedKeys_empty.insert ?_ _⟩
    split
    · decide
    · decide

theorem isAddressed_of_ingest (h : d.ingest config = .ok specs) (hs : s ∈ specs) :
    IsAddressed config.account s.urn := by
  rcases ingest_cases h with ⟨-, h⟩ | ⟨htype, h⟩ | ⟨-, h⟩ | ⟨-, h⟩
  · exact isAddressed_of_isGrantSpec (isGrantSpec_of_ingestGrant h hs)
  · exact isAddressed_of_isGrantSpec (isGrantSpec_of_ingestScopedGrant htype h hs)
  · exact isAddressed_of_isGrantSpec (isGrantSpec_of_ingestRoleGrant h hs)
  · obtain ⟨container, references, hcontainer, -, hurn, -, -⟩ := exists_of_ingestObject h hs
    have hlength := length_of_resolvedContainer hcontainer
    rw [hurn]
    refine ⟨rfl, ?_, Urn.hasGuardedKeys_empty⟩
    show (Container.ofNames container).names.length = d.type.pathLength
    rw [Container.length_names_ofNames (hlength ▸ d.type.pathLength_le), hlength]

/-- The text of the address of a declared resource leads back to it exactly if the account has no
colon in it and the names are guarded. -/
theorem parse_text_iff_of_ingest (h : d.ingest config = .ok specs) (hs : s ∈ specs) :
    Urn.parse s.urn.text = .ok s.urn ↔
      ':' ∉ config.account.toList ∧ s.urn.HasGuardedNames := by
  obtain ⟨haccount, hdepth, hkeys⟩ := isAddressed_of_ingest h hs
  rw [Urn.parse_text_iff, haccount]
  exact and_congr_right fun _ => ⟨fun h => h.names, fun hnames => ⟨hdepth, hnames, hkeys⟩⟩

/-! ## Names and accounts that hold what ends them -/

def declaredRole (name : String) : Declaration where
  type := .role
  name := name
  container := []
  properties := .empty
  references := .empty

def roleSpec (account name : String) : Spec where
  urn := .ofRole account name
  properties := .empty
  dependencies := .empty

theorem ingest_declaredRole {name : String} (account : String)
    (hname : (Text.trim name.toList).isEmpty = false) :
    (declaredRole name).ingest (.ofAccount account) = .ok [roleSpec account name] := by
  show (declaredRole name).ingestObject _ = _
  have hfilled : ¬ (Text.trim (declaredRole name).name.toList).isEmpty := by
    rw [Bool.not_eq_true]
    exact hname
  rw [ingestObject, if_neg hfilled]
  rfl

theorem parse_text_quotedRole :
    (declaredRole "\"a.b\"").ingest (.ofAccount "A") = .ok [roleSpec "A" "\"a.b\""] ∧
    Urn.parse (roleSpec "A" "\"a.b\"").urn.text = .ok (roleSpec "A" "\"a.b\"").urn := by
  have hingest : (declaredRole "\"a.b\"").ingest (.ofAccount "A") = .ok [roleSpec "A" "\"a.b\""] :=
    ingest_declaredRole "A" (by decide)
  refine ⟨hingest, (parse_text_iff_of_ingest hingest List.mem_cons_self).mpr ⟨by decide, ?_⟩⟩
  exact Urn.hasGuardedNames_ofNames (fun _ => ⟨"a.b".toList, by decide⟩) (List.forall_mem_nil _)
    (by decide)

/-- A name is kept as it is if it stands in quotes, also if a point in it does not, and an account
is only asked not to be blank. -/
theorem parse_text_ne_of_ingest :
    ((Config.ofAccount "A").validate = .ok () ∧
      (declaredRole "\"a\".b\"").ingest (.ofAccount "A") = .ok [roleSpec "A" "\"a\".b\""] ∧
      Urn.parse (roleSpec "A" "\"a\".b\"").urn.text ≠ .ok (roleSpec "A" "\"a\".b\"").urn) ∧
    ((Config.ofAccount "A:B").validate = .ok () ∧
      (declaredRole "R").ingest (.ofAccount "A:B") = .ok [roleSpec "A:B" "R"] ∧
      Urn.parse (roleSpec "A:B" "R").urn.text ≠ .ok (roleSpec "A:B" "R").urn) := by
  refine ⟨⟨rfl, ingest_declaredRole "A" (by decide), fun h => ?_⟩,
    ⟨rfl, ingest_declaredRole "A:B" (by decide), fun h => ?_⟩⟩
  · obtain ⟨-, hlegible⟩ := Urn.parse_text_iff.mp h
    exact absurd hlegible.names.name (by decide)
  · obtain ⟨haccount, -⟩ := Urn.parse_text_iff.mp h
    exact absurd haccount (by decide)

end Declaration
end Reconcile
