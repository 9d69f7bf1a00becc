import Reconcile.Fallible
import Reconcile.Urn.Implied
/-!
Addresses nest: the resources that an address names are smaller than the address, so following
them comes to an end.  Main statement: `weight_lt_of_mem_implied`.
-/

namespace Reconcile
namespace Urn

open Text Fallible

def valueLength : List (String × String) → Nat
  | [] => 0
  | e :: rest => e.2.length + valueLength rest

theorem length_le_valueLength {e : String × String} {l : List (String × String)} (h : e ∈ l) :
    e.2.length ≤ valueLength l := by
  induction l with
  | nil => cases h
  | cons d rest ih =>
    simp only [valueLength] at ih ⊢
    rcases List.mem_cons.mp h with rfl | h
    · omega
    · have := ih h
      omega

theorem valueLength_place (k v : String) (l : List (String × String)) :
    valueLength (SortedMap.place k v l) ≤ v.length + valueLength l := by
  induction l with
  | nil => simp [SortedMap.place, valueLength]
  | cons e rest ih =>
    rw [SortedMap.place]
    split
    · simp [valueLength]
    · simp only [valueLength]
      omega
    · simp only [valueLength] at ih ⊢
      omega

theorem valueLength_foldl_insert (l : List (String × String)) (m : SortedMap String String) :
    valueLength (l.foldl (fun m e => m.insert e.1 e.2) m).entries
      ≤ valueLength l + valueLength m.entries := by
  induction l generalizing m with
  | nil => simp [valueLength]
  | cons e rest ih =>
    have h₁ := ih (m.insert e.1 e.2)
    have h₂ := valueLength_place e.1 e.2 m.entries
    simp only [List.foldl_cons, SortedMap.insert] at h₁ ⊢
    simp only [valueLength] at h₁ h₂ ⊢
    omega

theorem valueLength_ofList (l : List (String × String)) :
    valueLength (SortedMap.ofList l).entries ≤ valueLength l := by
  simpa [SortedMap.ofList, SortedMap.empty, valueLength] using valueLength_foldl_insert l .empty

theorem length_readParam {pair : List Char} {e : String × String} (h : readParam pair = .ok e) :
    e.2.length ≤ pair.length := by
  rw [readParam] at h
  split at h
  · cases h
  next key value hcut =>
    split at h
    · cases h
    next decoded hdec =>
      cases h
      have := length_of_cutAt? hcut
      have := Percent.length_decode? hdec
      simp only [String.length_ofList]
      omega

theorem valueLength_mapM_readParam {pairs : List (List Char)} {entries : List (String × String)}
    (h : pairs.mapM readParam = .ok entries) :
    valueLength entries ≤ totalLength pairs := by
  induction pairs generalizing entries with
  | nil =>
    cases h
    simp [valueLength]
  | cons pair rest ih =>
    obtain ⟨e, he, es, hes, rfl⟩ := mapM_cons_eq_ok.mp h
    have := length_readParam he
    have := ih hes
    simp only [valueLength, totalLength] at this ⊢
    omega

theorem valueLength_readParams {query : List Char} {params : SortedMap String String}
    (h : readParams query = .ok params) : valueLength params.entries ≤ query.length := by
  simp only [readParams, bind_eq_ok, pure_eq_ok] at h
  obtain ⟨entries, he, rfl⟩ := h
  calc valueLength (SortedMap.ofList entries).entries
      ≤ valueLength entries := valueLength_ofList entries
    _ ≤ totalLength ((splitAll '&' query).filter fun p => !p.isEmpty) :=
      valueLength_mapM_readParam he
    _ ≤ totalLength (splitAll '&' query) := totalLength_filter _ _
    _ ≤ query.length := totalLength_splitAll '&' query

theorem length_cutQuery (s : List Char) : (cutQuery s).2.length ≤ s.length - 1 := by
  rw [cutQuery]
  cases h : cutUnquoted? '?' false s with
  | none => simp
  | some p =>
    have : p.2.length < s.length := length_of_cutUnquoted? (a := p.1) h
    simp only [Option.getD_some]
    omega

theorem valueLength_readName {account : String} {type : ResourceType} {s : List Char} {d : Urn}
    (h : readName account type s = .ok d) : valueLength d.params.entries ≤ s.length - 1 := by
  simp only [readName, bind_eq_ok, pure_eq_ok] at h
  obtain ⟨u, _, params, hp, rfl⟩ := h
  exact Nat.le_trans (valueLength_readParams hp) (length_cutQuery s)

theorem readName_nil (account : String) (type : ResourceType) :
    ∃ e, readName account type [] = .error e := by
  refine ⟨.invalidUrn (.wrongParts type ""), ?_⟩
  simp [readName, readPath, cutQuery, cutUnquoted?, splitUnquoted, bind, Except.bind]

theorem exists_of_ofReference {account reference : String} {d : Urn}
    (h : ofReference account reference = .ok d) :
    ∃ kind name, cutAt? '/' reference.toList = some (kind, name) ∧
      valueLength d.params.entries < name.length := by
  rw [ofReference] at h
  split at h
  · cases h
  next kind name hcut =>
    refine ⟨kind, name, hcut, ?_⟩
    obtain ⟨type, _, h⟩ := bind_eq_ok.mp h
    have hle := valueLength_readName h
    cases name with
    | nil =>
      obtain ⟨e, he⟩ := readName_nil account type
      rw [he] at h
      cases h
    | cons c rest =>
      simp only [List.length_cons, Nat.add_sub_cancel] at hle ⊢
      omega

theorem length_of_cutAt?_referenceOf {key value : String} {kind name : List Char}
    (h : cutAt? '/' (referenceOf key value).toList = some (kind, name)) :
    name.length ≤ value.length := by
  rw [referenceOf] at h
  split at h
  next hk =>
    have hkey : '/' ∉ key.toList := by
      simp only [Bool.and_eq_true, Bool.or_eq_true, decide_eq_true_eq] at hk
      rcases hk.1 with rfl | rfl <;> decide
    have hcut : ∀ s : List Char, '/' ∉ s → ∀ t, cutAt? '/' (s ++ '/' :: t) = some (s, t) := by
      intro s hs t
      induction s with
      | nil => simp [cutAt?]
      | cons c s ih =>
        obtain ⟨hc, hs⟩ := by simpa using hs
        simp [cutAt?, Ne.symm hc, ih hs]
    have : (key ++ "/" ++ value).toList = key.toList ++ '/' :: value.toList := by simp
    rw [this, hcut _ hkey] at h
    obtain ⟨rfl, rfl⟩ := by simpa using h
    simp [String.length_toList]
  · have := length_of_cutAt? h
    simp only [String.length_toList] at this
    omega

/-- The parameters of a resource that a parameter names are shorter than the parameter. -/
theorem valueLength_of_paramUrn? {u d : Urn} {key : String} (h : u.paramUrn? key = some d) :
    valueLength d.params.entries < valueLength u.params.entries := by
  rw [paramUrn?] at h
  simp only [Option.bind_eq_bind, Option.bind_eq_some_iff] at h
  obtain ⟨value, hvalue, hd⟩ := h
  have hd : ofReference u.account (referenceOf key value) = .ok d := by
    cases hr : ofReference u.account (referenceOf key value) with
    | error e => simp [hr, Except.toOption] at hd
    | ok v => simpa [hr, Except.toOption] using hd
  obtain ⟨kind, name, hcut, hlt⟩ := exists_of_ofReference hd
  have hle := length_of_cutAt?_referenceOf hcut
  have hmem : value.length ≤ valueLength u.params.entries := by
    rw [param?, SortedMap.get?] at hvalue
    obtain ⟨e, he, rfl⟩ := Option.map_eq_some_iff.mp hvalue
    exact length_le_valueLength (List.mem_of_find?_eq_some he)
  omega

/-- The room that an address takes. -/
def weight (u : Urn) : Nat :=
  4 * valueLength u.params.entries + u.container.names.length +
    (if u.type = .roleGrant then 1 else 0)

theorem length_names_le (c : Container) : c.names.length ≤ 2 := by
  cases c <;> simp [Container.names]

theorem weight_lt_of_parent? {u d : Urn} (h : u.parent? = some d) : d.weight < u.weight := by
  obtain ⟨account, type, container, name, params⟩ := u
  cases container <;> simp only [parent?, reduceCtorEq, Option.some.injEq] at h <;> subst h
  all_goals simp only [weight, Container.names, valueLength, SortedMap.empty]
  all_goals simp
  all_goals omega

/-- What an address names is smaller than the address. -/
theorem weight_lt_of_mem_implied {u d : Urn} (h : d ∈ u.implied) : d.weight < u.weight := by
  simp only [implied, List.mem_append, Option.mem_toList, List.mem_filterMap] at h
  rcases h with (h | ⟨key, _, h⟩) | h
  · exact weight_lt_of_parent? h
  · have := valueLength_of_paramUrn? h
    have := length_names_le d.container
    simp only [weight]
    split <;> split <;> omega
  · rw [grantedRole?] at h
    split at h
    next ht =>
      cases h
      simp [weight, ht, Container.names, valueLength, SortedMap.empty]
    · cases h

end Urn
end Reconcile
