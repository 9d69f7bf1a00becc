import Reconcile.Proofs.Grant.Expansion
import Reconcile.Proofs.Text.Blank
/-!
Reported privileges beside declared ones.  Main statements: `readsAsDeclared_iff`, a reported
privilege comes to what a declaration of the same text comes to exactly if it is well spelled, and
`usage_not_readsAsDeclared`, texts that are not.
-/

namespace Reconcile

open Fallible

namespace Text

theorem leadingWord_map_upper (s : List Char) : leadingWord (s.map upper) =
    ((leadingWord s).1.map upper, (leadingWord s).2.map (List.map upper)) := by
  induction s with
  | nil => rfl
  | cons c rest ih =>
    rw [List.map_cons, leadingWord, leadingWord, ih, isBlank_upper]
    simp only [List.isEmpty_map]
    split
    · split
      · rfl
      · rfl
    · rfl

theorem words_map_upper (s : List Char) : words (s.map upper) = (words s).map (List.map upper) := by
  rw [words, words, leadingWord_map_upper]
  simp only [List.isEmpty_map]
  split
  · rfl
  · rfl

theorem map_intercalate (f : Char → Char) (sep : Char) (pieces : List (List Char)) :
    ([sep].intercalate pieces).map f = [f sep].intercalate (pieces.map (List.map f)) := by
  induction pieces with
  | nil => rfl
  | cons piece pieces ih =>
    cases pieces with
    | nil => simp
    | cons next pieces =>
      rw [List.intercalate_cons_cons, List.map_append, List.map_append, ih]
      simp [List.intercalate_cons_cons]

end Text

namespace Privilege

variable {type : ResourceType} {text label : String} {privileges : List String}

theorem toList_canonicalName (text : String) : (canonicalName text).toList =
    [' '].intercalate ((Text.words text.toList).map (List.map Text.upper)) := by
  have hwords : (Text.words text.toList).map (String.toList ∘ String.ofList) =
      Text.words text.toList := by
    simp [Function.comp_def]
  rw [canonicalName, Text.toList_upperCase, String.toList_intercalate, List.map_map, hwords]
  exact Text.map_intercalate Text.upper ' ' _

theorem canonicalName_upperCase (text : String) :
    canonicalName (Text.upperCase text) = canonicalName text := by
  have hupper : List.map Text.upper ∘ List.map Text.upper = List.map Text.upper := by
    funext s
    simp
  refine String.toList_injective ?_
  rw [toList_canonicalName, toList_canonicalName, Text.toList_upperCase, Text.words_map_upper,
    List.map_map, hupper]

theorem eraseDups_allOn (type : ResourceType) : (allOn type).eraseDups = allOn type := by
  cases type <;> rfl

/-- What `ALL` stands for are privileges that stand for themselves. -/
theorem canonicalName_of_mem_allOn {privilege : String} (h : privilege ∈ allOn type) :
    canonicalName privilege = privilege ∧ ¬ isAll privilege := by
  revert privilege
  cases type <;> decide

theorem expand_text : expand label (some (.string text)) type = .ok privileges ↔
    ∃ own, denoted type text = .ok own ∧ own.eraseDups = privileges := by
  have hone : ¬ [text].isEmpty := by simp
  simp only [expand, mapError_eq_ok_iff, texts, bind_eq_ok, Except.ok.injEq, exists_eq_left',
    if_neg hone, mapM_cons_eq_ok, List.mapM_nil, pure_eq_ok]
  constructor
  · rintro ⟨_, ⟨own, hown, rfl⟩, rfl⟩
    exact ⟨own, hown, by simp⟩
  · rintro ⟨own, hown, rfl⟩
    exact ⟨_, ⟨own, hown, rfl⟩, by simp⟩

theorem expand_text_eq_ok_iff : expand label (some (.string text)) type = .ok privileges ↔
    canonicalName text ≠ ownership ∧
      if isAll (canonicalName text) then allOn type ≠ [] ∧ privileges = allOn type
      else privileges = [canonicalName text] := by
  rw [expand_text, denoted]
  by_cases howner : canonicalName text = ownership
  · rw [if_pos howner]
    refine iff_of_false ?_ fun h => h.1 howner
    rintro ⟨_, h, -⟩
    cases h
  by_cases hall : isAll (canonicalName text)
  · rw [if_neg howner, if_pos hall, if_pos hall]
    by_cases hnone : allOn type = []
    · rw [if_pos (List.isEmpty_iff.mpr hnone)]
      refine iff_of_false ?_ fun h => h.2.1 hnone
      rintro ⟨_, h, -⟩
      cases h
    · rw [if_neg (mt List.isEmpty_iff.mp hnone)]
      simp [howner, hnone, eraseDups_allOn, eq_comm]
  · rw [if_neg howner, if_neg hall, if_neg hall]
    simp [howner, List.eraseDups_cons, eq_comm]

end Privilege

theorem Urn.withParam_again (u : Urn) {key later : String} (h : key ≠ later)
    (value laterValue again : String) :
    ((u.withParam key value).withParam later laterValue).withParam key again =
      (u.withParam key again).withParam later laterValue := by
  have hparams : ((u.params.insert key value).insert later laterValue).insert key again =
      (u.params.insert key again).insert later laterValue := by
    refine SortedMap.ext_get? fun k => ?_
    simp only [SortedMap.get?_insert]
    by_cases hk : key = k
    · rw [if_pos hk, if_neg (fun hlater => h (hk.trans hlater.symm)), if_pos hk]
    · rw [if_neg hk, if_neg hk, if_neg hk]
  exact congrArg (fun params => { u with params := params }) hparams

namespace Grant

inductive Target where
  | object (on : Urn)
  | future (type : ResourceType) (container : Urn)
  | existing (type : ResourceType) (container : Urn)

namespace Target

def type : Target → ResourceType
  | object on => on.type
  | future type _ | existing type _ => type

def urn (t : Target) (account : String) (grantee : Urn) (privilege : String) : Urn :=
  match t with
  | object on => objectUrn account privilege on grantee
  | future type container => scopedUrn account .futureGrant privilege type container grantee
  | existing type container => scopedUrn account .grantOnAll privilege type container grantee

def record (t : Target) (account : String) (grantee : Urn) (properties : Properties)
    (privilege : String) : Record := ⟨t.urn account grantee privilege, properties⟩

variable {t : Target} {account privilege other : String} {grantee : Urn} {properties : Properties}

theorem param?_priv (t : Target) (account : String) (grantee : Urn) (privilege : String) :
    (t.urn account grantee privilege).param? "priv" = some privilege := by
  cases t with
  | object on => exact priv_objectUrn _ _ _ _
  | future type container => exact param?_scopedUrn _ _ _ _ _ _ _
  | existing type container => exact param?_scopedUrn _ _ _ _ _ _ _

theorem record_inj : t.record account grantee properties privilege =
    t.record account grantee properties other ↔ privilege = other := by
  refine ⟨fun h => ?_, fun h => h ▸ rfl⟩
  have hurn : t.urn account grantee privilege = t.urn account grantee other := congrArg Record.urn h
  have hpriv := t.param?_priv account grantee privilege
  rw [hurn, param?_priv] at hpriv
  exact (Option.some.inj hpriv).symm

theorem targetType?_urn (t : Target) (account : String) (grantee : Urn) (privilege : String) :
    (t.urn account grantee privilege).targetType? = some t.type := by
  have hname (type : ResourceType) : ResourceType.ofName? type.tag.toList = some type := by
    cases type <;> rfl
  have hscoped (type bulk : ResourceType) (container : Urn) :
      (scopedUrn account bulk privilege type container grantee).targetType? = some type := by
    rw [Urn.targetType?, param?_scopedUrn]
    exact hname type
  cases t with
  | object on =>
    have hnone : (objectUrn account privilege on grantee).param? "on_type" = none :=
      param?_objectUrn _ _ _ _ _
    have hon : (objectUrn account privilege on grantee).param? "on" = some on.reference :=
      param?_objectUrn _ _ _ _ _
    rw [urn, Urn.targetType?, hnone, hon]
    simp only [Option.bind_eq_bind, Option.bind_some, Urn.cutAt?_reference]
    exact hname on.type
  | future type container => exact hscoped type _ container
  | existing type container => exact hscoped type _ container

theorem withParam_priv (t : Target) (account : String) (grantee : Urn) (privilege other : String) :
    (t.urn account grantee privilege).withParam "priv" other = t.urn account grantee other := by
  cases t with
  | object on => exact Urn.withParam_again _ (by decide) _ _ _
  | future type container => exact Urn.withParam_again _ (by decide) _ _ _
  | existing type container => exact Urn.withParam_again _ (by decide) _ _ _

theorem normalizeRecord_record (t : Target) (account : String) (grantee : Urn)
    (properties : Properties) (text : String) :
    normalizeRecord (t.record account grantee properties text) =
      if Text.upperCase text = Privilege.ownership then []
      else if Privilege.isAll (Text.upperCase text) then
        (Privilege.allOn t.type).map (t.record account grantee properties)
      else [t.record account grantee properties text] := by
  have hpriv : (t.record account grantee properties text).urn.param? "priv" = some text :=
    t.param?_priv account grantee text
  have htype : (t.record account grantee properties text).urn.targetType? = some t.type :=
    t.targetType?_urn account grantee text
  rw [normalizeRecord, reported, hpriv, htype]
  dsimp only
  by_cases howner : Text.upperCase text = Privilege.ownership
  · rw [if_pos howner, if_pos howner]
  · rw [if_neg howner, if_neg howner]
    by_cases hall : Privilege.isAll (Text.upperCase text)
    · rw [if_pos hall, if_pos hall]
      refine List.map_congr_left fun p _ => ?_
      show Record.mk ((t.urn account grantee text).withParam "priv" p) properties = _
      rw [withParam_priv]
      rfl
    · rw [if_neg hall, if_neg hall]

end Target

/-- Of a reported privilege the engine keeps what a declaration of the same text comes to: a record
for each privilege, with the reported properties, and nothing of ownership. -/
def ReadsAsDeclared (t : Target) (account : String) (grantee : Urn) (text : String) : Prop :=
  ∀ properties label,
    (∀ privileges, Privilege.expand label (some (.string text)) t.type = .ok privileges →
      normalizeRemote [t.record account grantee properties text] =
        privileges.map (t.record account grantee properties)) ∧
    (Privilege.canonicalName text = Privilege.ownership →
      normalizeRemote [t.record account grantee properties text] = [])

/-- The text is spelled as the engine reads it: a privilege as it is kept, ownership and all
privileges of a type in any case, but with single blanks. -/
structure IsWellSpelled (type : ResourceType) (text : String) : Prop where
  ownership : Privilege.canonicalName text = Privilege.ownership →
    Text.upperCase text = Privilege.canonicalName text
  all : Privilege.isAll (Privilege.canonicalName text) →
    Privilege.allOn type = [] ∨ Text.upperCase text = Privilege.canonicalName text
  concrete : Privilege.canonicalName text ≠ Privilege.ownership →
    ¬ Privilege.isAll (Privilege.canonicalName text) → text = Privilege.canonicalName text

theorem normalizeRemote_singleton (r : Record) : normalizeRemote [r] = normalizeRecord r := by
  rw [normalizeRemote, List.flatMap_cons, List.flatMap_nil, List.append_nil]

variable {t : Target} {account text : String} {grantee : Urn}

theorem ne_ownership_of_isAll {name : String} (h : Privilege.isAll name) :
    name ≠ Privilege.ownership := by
  rintro rfl
  cases h

theorem canonicalName_of_isAll {name : String} (h : Privilege.isAll name) :
    Privilege.canonicalName name = name := by
  rcases Bool.or_eq_true _ _ ▸ h with h | h
  · rw [beq_iff_eq.mp h]
    rfl
  · rw [beq_iff_eq.mp h]
    rfl

/-- A text that is not spelled as ownership or as all privileges is kept as it is. -/
theorem normalizeRemote_of_ne (t : Target) (account : String) (grantee : Urn)
    (properties : Properties)
    (howner : Privilege.canonicalName text = Privilege.ownership →
      Text.upperCase text ≠ Privilege.canonicalName text)
    (hall : Privilege.isAll (Privilege.canonicalName text) →
      Text.upperCase text ≠ Privilege.canonicalName text) :
    normalizeRemote [t.record account grantee properties text] =
      [t.record account grantee properties text] := by
  have howner : Text.upperCase text ≠ Privilege.ownership := by
    intro h
    have hname : Privilege.canonicalName text = Privilege.ownership := by
      rw [← Privilege.canonicalName_upperCase, h]
      rfl
    exact howner hname (h.trans hname.symm)
  have hall : ¬ Privilege.isAll (Text.upperCase text) := by
    intro h
    have hname : Privilege.canonicalName text = Text.upperCase text := by
      rw [← Privilege.canonicalName_upperCase, canonicalName_of_isAll h]
    exact hall (hname ▸ h) hname.symm
  rw [normalizeRemote_singleton, Target.normalizeRecord_record, if_neg howner, if_neg hall]

theorem readsAsDeclared_of_ownership (h : Privilege.canonicalName text = Privilege.ownership) :
    ReadsAsDeclared t account grantee text ↔
      Text.upperCase text = Privilege.canonicalName text := by
  simp only [ReadsAsDeclared, Privilege.expand_text_eq_ok_iff]
  constructor
  · intro hreads
    by_contra hne
    have hkept := normalizeRemote_of_ne t account grantee .empty (fun _ => hne) (fun _ => hne)
    rw [(hreads .empty "").2 h] at hkept
    cases hkept
  · intro hupper properties label
    refine ⟨fun privileges hprivileges => absurd h hprivileges.1, fun _ => ?_⟩
    rw [normalizeRemote_singleton, Target.normalizeRecord_record, if_pos (hupper.trans h)]

theorem readsAsDeclared_of_isAll (h : Privilege.isAll (Privilege.canonicalName text)) :
    ReadsAsDeclared t account grantee text ↔
      Privilege.allOn t.type = [] ∨ Text.upperCase text = Privilege.canonicalName text := by
  have howner := ne_ownership_of_isAll h
  simp only [ReadsAsDeclared, Privilege.expand_text_eq_ok_iff, if_pos h]
  constructor
  · intro hreads
    by_contra hnone
    obtain ⟨hsome, hne⟩ := not_or.mp hnone
    have hkept := normalizeRemote_of_ne t account grantee .empty (fun _ => hne) (fun _ => hne)
    rw [(hreads .empty "").1 _ ⟨howner, hsome, rfl⟩] at hkept
    -- The text would be one of the privileges that it stands for, and none of these is `ALL`.
    obtain ⟨p, hp, hrecord⟩ := List.mem_map.mp (hkept ▸ List.mem_singleton_self _)
    obtain rfl := Target.record_inj.mp hrecord
    obtain ⟨hname, hall⟩ := Privilege.canonicalName_of_mem_allOn hp
    exact hall (hname ▸ h)
  · intro hspelled properties label
    refine ⟨fun privileges hprivileges => ?_, fun h => absurd h howner⟩
    obtain ⟨-, hsome, rfl⟩ := hprivileges
    have hupper := hspelled.resolve_left hsome
    rw [normalizeRemote_singleton, Target.normalizeRecord_record, if_neg (hupper ▸ howner),
      if_pos (hupper ▸ h)]

theorem readsAsDeclared_of_concrete (howner : Privilege.canonicalName text ≠ Privilege.ownership)
    (hall : ¬ Privilege.isAll (Privilege.canonicalName text)) :
    ReadsAsDeclared t account grantee text ↔ text = Privilege.canonicalName text := by
  simp only [ReadsAsDeclared, Privilege.expand_text_eq_ok_iff, if_neg hall]
  have hkept (properties : Properties) := normalizeRemote_of_ne t account grantee properties
    (fun h => absurd h howner) (fun h => absurd h hall)
  constructor
  · intro hreads
    have hname := (hreads .empty "").1 _ ⟨howner, rfl⟩
    rw [hkept] at hname
    exact Target.record_inj.mp (List.cons.inj hname).1
  · intro hname properties label
    refine ⟨fun privileges hprivileges => ?_, fun h => absurd h howner⟩
    obtain ⟨-, rfl⟩ := hprivileges
    rw [hkept, ← hname]
    rfl

theorem readsAsDeclared_iff_isWellSpelled (t : Target) (account : String) (grantee : Urn)
    (text : String) : ReadsAsDeclared t account grantee text ↔ IsWellSpelled t.type text := by
  by_cases howner : Privilege.canonicalName text = Privilege.ownership
  · rw [readsAsDeclared_of_ownership howner]
    exact ⟨fun h => ⟨fun _ => h, fun hall => absurd howner (ne_ownership_of_isAll hall),
      fun hother => absurd howner hother⟩, fun h => h.ownership howner⟩
  by_cases hall : Privilege.isAll (Privilege.canonicalName text)
  · rw [readsAsDeclared_of_isAll hall]
    exact ⟨fun h => ⟨fun howner' => absurd howner' howner, fun _ => h,
      fun _ hother => absurd hall hother⟩, fun h => h.all hall⟩
  · rw [readsAsDeclared_of_concrete howner hall]
    exact ⟨fun h => ⟨fun howner' => absurd howner' howner, fun hall' => absurd hall' hall,
      fun _ _ => h⟩, fun h => h.concrete howner hall⟩

/-! ## Declarations of the same privileges -/

def Target.IsNamedBy (t : Target) (account : String) (d : Declaration) : Prop :=
  match t with
  | object on => d.type = .grant ∧ d.requiredReference account "on" = .ok on
  | future type container =>
    d.type = .futureGrant ∧ d.requiredReference account "in" = .ok container ∧
      d.targetType = .ok type
  | existing type container =>
    d.type = .grantOnAll ∧ d.requiredReference account "in" = .ok container ∧
      d.targetType = .ok type

variable {d : Declaration} {config : Config} {specs : List Spec}

theorem map_urn_of_ingestGrant {on : Urn} (hon : d.requiredReference account "on" = .ok on)
    (hto : d.requiredReference account "to" = .ok grantee)
    (h : d.ingestGrant account = .ok specs) :
    ∃ privileges, d.privileges on.type = .ok privileges ∧
      specs.map Spec.urn = privileges.map fun p => objectUrn account p on grantee := by
  simp only [Declaration.ingestGrant, hon, hto, bind_eq_ok, pure_eq_ok, Except.ok.injEq,
    exists_eq_left'] at h
  obtain ⟨⟨⟩, -, option, -, privileges, hprivileges, rfl⟩ := h
  exact ⟨privileges, hprivileges, List.map_map⟩

theorem map_urn_of_ingestScopedGrant {container : Urn} {type : ResourceType}
    (hin : d.requiredReference account "in" = .ok container) (htype : d.targetType = .ok type)
    (hto : d.requiredReference account "to" = .ok grantee)
    (h : d.ingestScopedGrant account = .ok specs) :
    ∃ privileges, d.privileges type = .ok privileges ∧
      specs.map Spec.urn = privileges.map fun p => scopedUrn account d.type p type container
        grantee := by
  simp only [Declaration.ingestScopedGrant, Declaration.fail, bind_eq_ok] at h
  obtain ⟨_, hcontainer, h⟩ := h
  obtain rfl := Except.ok.inj (hin.symm.trans hcontainer)
  split at h
  · cases h
  simp only [bind_eq_ok] at h
  obtain ⟨_, hgrantee, ⟨⟩, -, _, htarget, h⟩ := h
  obtain rfl := Except.ok.inj (hto.symm.trans hgrantee)
  obtain rfl := Except.ok.inj (htype.symm.trans htarget)
  split at h
  · cases h
  simp only [bind_eq_ok, pure_eq_ok] at h
  obtain ⟨option, -, privileges, hprivileges, rfl⟩ := h
  exact ⟨privileges, hprivileges, List.map_map⟩

/-- A declaration comes to one address for each privilege that it denotes on the target. -/
theorem map_urn_of_ingest (ht : t.IsNamedBy config.account d)
    (hto : d.requiredReference config.account "to" = .ok grantee)
    (h : d.ingest config = .ok specs) :
    ∃ privileges, d.privileges t.type = .ok privileges ∧
      specs.map Spec.urn = privileges.map (t.urn config.account grantee) := by
  cases t with
  | object on =>
    obtain ⟨htype, hon⟩ := ht
    rw [Declaration.ingest, htype] at h
    exact map_urn_of_ingestGrant hon hto h
  | future type container =>
    obtain ⟨htype, hin, htarget⟩ := ht
    rw [Declaration.ingest, htype] at h
    obtain ⟨privileges, hprivileges, hurns⟩ := map_urn_of_ingestScopedGrant hin htarget hto h
    exact ⟨privileges, hprivileges, hurns.trans (by rw [htype]; rfl)⟩
  | existing type container =>
    obtain ⟨htype, hin, htarget⟩ := ht
    rw [Declaration.ingest, htype] at h
    obtain ⟨privileges, hprivileges, hurns⟩ := map_urn_of_ingestScopedGrant hin htarget hto h
    exact ⟨privileges, hprivileges, hurns.trans (by rw [htype]; rfl)⟩

theorem normalizeRemote_of_ingest {properties : Properties}
    (hreads : ReadsAsDeclared t config.account grantee text)
    (ht : t.IsNamedBy config.account d)
    (hto : d.requiredReference config.account "to" = .ok grantee)
    (hpriv : d.properties.get? "priv" = some (.string text)) (h : d.ingest config = .ok specs) :
    normalizeRemote [t.record config.account grantee properties text] =
      specs.map fun s => ⟨s.urn, properties⟩ := by
  obtain ⟨privileges, hprivileges, hurns⟩ := map_urn_of_ingest ht hto h
  rw [Declaration.privileges, hpriv] at hprivileges
  rw [(hreads properties d.label).1 privileges hprivileges]
  have hrecords := congrArg (List.map fun u => Record.mk u properties) hurns
  rw [List.map_map, List.map_map] at hrecords
  exact hrecords.symm

/-- A reported privilege comes to what a declaration of the same text comes to exactly if it is well
spelled.  The records of a list are taken one by one, and those without a privilege as they are. -/
theorem readsAsDeclared_iff (t : Target) (account : String) (grantee : Urn) (text : String) :
    (ReadsAsDeclared t account grantee text ↔ IsWellSpelled t.type text) ∧
    (IsWellSpelled t.type text → ∀ d config specs properties, config.account = account →
      t.IsNamedBy account d → d.requiredReference account "to" = .ok grantee →
      d.properties.get? "priv" = some (.string text) → d.ingest config = .ok specs →
      normalizeRemote [t.record account grantee properties text] =
        specs.map fun s => ⟨s.urn, properties⟩) ∧
    (∀ records, normalizeRemote records = records.flatMap fun r => normalizeRemote [r]) ∧
    ∀ r, r.urn.param? "priv" = none → normalizeRemote [r] = [r] := by
  have hreads := readsAsDeclared_iff_isWellSpelled t account grantee text
  refine ⟨hreads, ?_, fun records => ?_, fun r hr => ?_⟩
  · rintro hspelled d config specs properties rfl ht hto hpriv h
    exact normalizeRemote_of_ingest (hreads.mpr hspelled) ht hto hpriv h
  · exact List.flatMap_congr fun r _ => (normalizeRemote_singleton r).symm
  · rw [normalizeRemote_singleton, normalizeRecord, reported, hr]

def futureTables : Declaration where
  type := .futureGrant
  name := ""
  container := []
  properties := (SortedMap.empty.insert "priv" (.string "All Privileges")).insert "on_type"
    (.string "table")
  references := (SortedMap.empty.insert "in" (.named .schema "S" ["DB"])).insert "to"
    (.named .role "ANALYST" [])

theorem readsAsDeclared_allPrivileges :
    let t := Target.future .table (.ofNames "A" .schema ["DB"] "S")
    let grantee := Urn.ofRole "A" "ANALYST"
    IsWellSpelled t.type "All Privileges" ∧ t.IsNamedBy "A" futureTables ∧
    ReadsAsDeclared t "A" grantee "All Privileges" ∧
    ∃ specs, futureTables.ingest (.ofAccount "A") = .ok specs ∧ specs.length = 8 ∧
      normalizeRemote [t.record "A" grantee (Declaration.grantProperties true) "All Privileges"] =
        specs.map fun s => ⟨s.urn, Declaration.grantProperties true⟩ := by
  intro t grantee
  have hspelled : IsWellSpelled t.type "All Privileges" :=
    ⟨fun _ => by decide, fun _ => .inr (by decide), fun _ hother => absurd (by decide) hother⟩
  have hnamed : t.IsNamedBy "A" futureTables := ⟨rfl, rfl, rfl⟩
  have hspecs : ∃ specs, futureTables.ingest (.ofAccount "A") = .ok specs ∧ specs.length = 8 :=
    ⟨_, rfl, rfl⟩
  obtain ⟨specs, hingest, hlength⟩ := hspecs
  obtain ⟨hreads, hrecords, -⟩ := readsAsDeclared_iff t "A" grantee "All Privileges"
  exact ⟨hspelled, hnamed, hreads.mpr hspelled, specs, hingest, hlength,
    hrecords hspelled futureTables (.ofAccount "A") specs _ rfl hnamed rfl rfl hingest⟩

/-- A privilege in lower case, ownership behind a blank and all privileges with a blank too many are
kept as they are reported. -/
theorem usage_not_readsAsDeclared :
    let t := Target.object (.ofNames "A" .warehouse [] "WH")
    let grantee := Urn.ofRole "A" "R"
    ¬ ReadsAsDeclared t "A" grantee "usage" ∧ ¬ ReadsAsDeclared t "A" grantee " ownership" ∧
      ¬ ReadsAsDeclared t "A" grantee "all  privileges" := by
  intro t grantee
  refine ⟨?_, ?_, ?_⟩
  · exact mt (readsAsDeclared_of_concrete (by decide) (by decide)).mp (by decide)
  · exact mt (readsAsDeclared_of_ownership (by decide)).mp (by decide)
  · exact mt (readsAsDeclared_of_isAll (by decide)).mp (by decide)

end Grant
end Reconcile
