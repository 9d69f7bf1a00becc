import Reconcile.Diff.Update
import Reconcile.Proofs.Fallible
/-!
What statements do, by their first words.  Main statements: `exists_creates_of_render`,
`verb_of_render_change` and `render_remove` on objects, `verb_of_render_grant` on grants.
-/

namespace Reconcile

open Fallible

def verb (sql : String) : String := String.ofList (sql.toList.takeWhile fun c => c != ' ')

theorem verb_append (word : String) {rest : String} (h : ' ' ∉ word.toList) :
    verb (word ++ (" " ++ rest)) = word := by
  have hword : ∀ c ∈ word.toList, c != ' ' := by
    intro c hc
    exact bne_iff_ne.mpr fun hspace => h (hspace ▸ hc)
  have htake : (word.toList ++ ' ' :: rest.toList).takeWhile (fun c => c != ' ') = word.toList := by
    rw [List.takeWhile_append_of_pos hword]
    simp
  have hlist : (word ++ (" " ++ rest)).toList = word.toList ++ ' ' :: rest.toList := by simp
  rw [verb, hlist, htake, String.ofList_toList]

theorem verb_create (rest : String) : verb ("CREATE " ++ rest) = "CREATE" :=
  verb_append "CREATE" (by decide)

theorem verb_alter (rest : String) : verb ("ALTER " ++ rest) = "ALTER" :=
  verb_append "ALTER" (by decide)

theorem verb_grant (rest : String) : verb ("GRANT " ++ rest) = "GRANT" :=
  verb_append "GRANT" (by decide)

theorem verb_of_mem_alter {target sql : String} {fields : List (String × Json)}
    (h : sql ∈ Sql.alter target fields) : verb sql = "ALTER" := by
  rw [Sql.alter, List.mem_append] at h
  rcases h with h | h
  · split at h
    · cases h
    · obtain rfl := List.mem_singleton.mp h
      rw [String.append_assoc, String.append_assoc, verb_alter]
  · split at h
    · cases h
    · obtain rfl := List.mem_singleton.mp h
      rw [String.append_assoc, String.append_assoc, verb_alter]

namespace Lifecycle

variable {urn : Urn} {before : Option Properties} {after : Properties} {sql : List String}
  {s : String}

theorem verb_of_mem_alterView {fields : List (String × Json)} (h : s ∈ alterView urn fields) :
    verb s = "ALTER" := by
  simp only [alterView, List.mem_append, List.mem_map] at h
  rcases h with ⟨e, -, rfl⟩ | h
  · rw [String.append_assoc, String.append_assoc, verb_alter]
  · exact verb_of_mem_alter h

/-- The statements of an object are those of the account, of a table, of a view, or of any other
object. -/
theorem render_cases (hgrant : ¬ urn.type.isGrant) (action : Action)
    (before after : Option Properties) :
    (urn.type = .account ∧ render urn action before after = renderAccount urn action before after) ∨
    render urn action before after = renderTable urn action before after ∨
    render urn action before after = renderView urn action before after ∨
    render urn action before after = renderObject urn action before after := by
  unfold render
  cases htype : urn.type with
  | account => exact .inl ⟨rfl, rfl⟩
  | table => exact .inr (.inl rfl)
  | view => exact .inr (.inr (.inl rfl))
  | grant => exact absurd (htype ▸ rfl) hgrant
  | futureGrant => exact absurd (htype ▸ rfl) hgrant
  | grantOnAll => exact absurd (htype ▸ rfl) hgrant
  | roleGrant => exact absurd (htype ▸ rfl) hgrant
  | _ => exact .inr (.inr (.inr rfl))

/-! ## Creating -/

def creationKeywords : List String := ["", "TRANSIENT ", "SECURE "]

def Creates (urn : Urn) (sql : String) : Prop :=
  ∃ keyword ∈ creationKeywords, ∃ rest, sql = "CREATE " ++ keyword ++ urn.object ++ rest

theorem Creates.verb (h : Creates urn s) : verb s = "CREATE" := by
  obtain ⟨keyword, -, rest, rfl⟩ := h
  rw [String.append_assoc, String.append_assoc, verb_create]

theorem keywordFor_transient_mem (p : Properties) :
    keywordFor p "transient" ∈ creationKeywords := by
  rw [keywordFor]
  split
  · decide
  · decide

theorem keywordFor_secure_mem (p : Properties) : keywordFor p "secure" ∈ creationKeywords := by
  rw [keywordFor]
  split
  · decide
  · decide

theorem creates_createObject : Creates urn (createObject urn after) := by
  refine ⟨String.join (urn.type.keywordFields.map (keywordFor after)), ?_, _, rfl⟩
  have hone : String.join [keywordFor after "transient"] = keywordFor after "transient" := by
    simp [String.join]
  cases urn.type with
  | database => exact hone ▸ keywordFor_transient_mem after
  | schema => exact hone ▸ keywordFor_transient_mem after
  | _ => exact List.mem_cons_self

theorem creates_of_createTable (h : createTable urn after = .ok s) : Creates urn s := by
  simp only [createTable] at h
  split at h
  · obtain rfl := Except.ok.inj h
    exact ⟨_, keywordFor_transient_mem after, _, by simp only [String.append_assoc]; rfl⟩
  · simp only [bind_eq_ok, pure_eq_ok] at h
    obtain ⟨columns, -, rfl⟩ := h
    exact ⟨_, keywordFor_transient_mem after, _, by simp only [String.append_assoc]; rfl⟩

theorem creates_of_createView (h : createView urn after = .ok s) : Creates urn s := by
  rw [createView] at h
  split at h
  · obtain rfl := Except.ok.inj h
    exact ⟨_, keywordFor_secure_mem after, _, by simp only [String.append_assoc]; rfl⟩
  · cases h

theorem exists_creates_of_render (hgrant : ¬ urn.type.isGrant) (haccount : urn.type ≠ .account)
    (h : render urn .add none (some after) = .ok sql) : ∃ s, sql = [s] ∧ Creates urn s := by
  rcases render_cases hgrant .add none (some after) with ⟨htype, -⟩ | hrender | hrender | hrender
  · exact absurd htype haccount
  · rw [hrender] at h
    obtain ⟨s, hs, h⟩ := bind_eq_ok.mp h
    exact ⟨s, (pure_eq_ok.mp h).symm, creates_of_createTable hs⟩
  · rw [hrender] at h
    obtain ⟨s, hs, h⟩ := bind_eq_ok.mp h
    exact ⟨s, (pure_eq_ok.mp h).symm, creates_of_createView hs⟩
  · rw [hrender] at h
    exact ⟨_, (Except.ok.inj h).symm, creates_createObject⟩

/-! ## Altering and dropping -/

theorem verb_of_render_change (hgrant : ¬ urn.type.isGrant)
    (h : render urn .change before (some after) = .ok sql) (hs : s ∈ sql) : verb s = "ALTER" := by
  rcases render_cases hgrant .change before (some after) with
    ⟨-, hrender⟩ | hrender | hrender | hrender
  · obtain rfl := Except.ok.inj (hrender.symm.trans h)
    exact verb_of_mem_alter hs
  · obtain rfl := Except.ok.inj (hrender.symm.trans h)
    exact verb_of_mem_alter hs
  · obtain rfl := Except.ok.inj (hrender.symm.trans h)
    exact verb_of_mem_alterView hs
  · obtain rfl := Except.ok.inj (hrender.symm.trans h)
    exact verb_of_mem_alter hs

theorem verb_drop (urn : Urn) : verb (drop urn) = "DROP" := verb_append "DROP" (by decide)

theorem render_remove (hgrant : ¬ urn.type.isGrant) (haccount : urn.type ≠ .account)
    {after : Option Properties} : render urn .remove before after = .ok [drop urn] := by
  rcases render_cases hgrant .remove before after with ⟨htype, -⟩ | hrender | hrender | hrender
  · exact absurd htype haccount
  · exact hrender
  · exact hrender
  · exact hrender

/-! ## Granting and revoking -/

/-- The statement takes away no more than the right to grant a privilege on. -/
def RevokesOption (sql : String) : Prop := ∃ rest, sql = "REVOKE GRANT OPTION FOR " ++ rest

variable {action : Action} {target : String} {after : Option Properties}

theorem verb_of_renderPrivilege (haction : action = .add ∨ action = .change)
    (h : renderPrivilege urn action target before after = .ok sql) (hs : s ∈ sql) :
    verb s = "GRANT" ∨ RevokesOption s := by
  simp only [renderPrivilege, bind_eq_ok] at h
  obtain ⟨privilege, -, grantee, -, h⟩ := h
  have hgranting (ending : String) : verb ("GRANT " ++ privilege ++ " ON " ++ target ++ " TO " ++
      grantee.object ++ ending) = "GRANT" := by
    simp only [String.append_assoc]
    exact verb_grant _
  have hplain : verb ("GRANT " ++ privilege ++ " ON " ++ target ++ " TO " ++ grantee.object) =
      "GRANT" := by
    simpa using hgranting ""
  rcases haction with rfl | rfl
  · obtain rfl := pure_eq_ok.mp h
    obtain rfl := List.mem_singleton.mp hs
    split
    · exact .inl (hgranting _)
    · exact .inl hplain
  · dsimp only at h
    split at h
    · obtain rfl := pure_eq_ok.mp h
      obtain rfl := List.mem_singleton.mp hs
      exact .inl (hgranting _)
    · obtain rfl := pure_eq_ok.mp h
      obtain rfl := List.mem_singleton.mp hs
      exact .inr ⟨privilege ++ " ON " ++ target ++ " FROM " ++ grantee.object, by
        simp only [String.append_assoc]⟩

theorem verb_of_renderRoleGrant (haction : action = .add ∨ action = .change)
    (h : renderRoleGrant urn action = .ok sql) (hs : s ∈ sql) : verb s = "GRANT" := by
  unfold renderRoleGrant at h
  split at h
  · cases h
  next grantee _ =>
    rcases haction with rfl | rfl
    · obtain rfl := Except.ok.inj h
      obtain rfl := List.mem_singleton.mp hs
      have hwords : "GRANT ROLE " ++ urn.name.text ++ " TO " ++ grantee.object =
          "GRANT " ++ ("ROLE " ++ urn.name.text ++ " TO " ++ grantee.object) := by
        rw [← String.append_assoc, ← String.append_assoc, ← String.append_assoc]
        rfl
      rw [hwords, verb_grant]
    · cases h

/-- Granting, and changing what is granted, revokes nothing but the right to grant on. -/
theorem verb_of_render_grant (haction : action = .add ∨ action = .change)
    (hgrant : urn.type.isGrant) (h : render urn action before after = .ok sql) (hs : s ∈ sql) :
    verb s = "GRANT" ∨ RevokesOption s := by
  cases htype : urn.type with
  | grant =>
    rw [render, htype] at h
    obtain ⟨on, -, h⟩ := bind_eq_ok.mp h
    exact verb_of_renderPrivilege haction h hs
  | futureGrant =>
    rw [render, htype] at h
    simp only [renderScopedGrant, bind_eq_ok] at h
    obtain ⟨name, -, type, -, container, -, h⟩ := h
    exact verb_of_renderPrivilege haction h hs
  | grantOnAll =>
    rw [render, htype] at h
    simp only [renderScopedGrant, bind_eq_ok] at h
    obtain ⟨name, -, type, -, container, -, h⟩ := h
    exact verb_of_renderPrivilege haction h hs
  | roleGrant =>
    rw [render, htype] at h
    exact .inl (verb_of_renderRoleGrant haction h hs)
  | _ =>
    rw [htype] at hgrant
    cases hgrant

theorem verb_transferOwnership (owner : String) : verb (transferOwnership urn owner) = "GRANT" := by
  have hwords : transferOwnership urn owner =
      "GRANT " ++ ("OWNERSHIP ON " ++ urn.object ++ " TO ROLE " ++ owner ++
        " COPY CURRENT GRANTS") := by
    simp only [← String.append_assoc]
    rfl
  rw [hwords, verb_grant]

end Lifecycle
end Reconcile
