import Reconcile.Proofs.Collection
import Reconcile.Proofs.Grant.Address
import Reconcile.Proofs.Identifier
import Reconcile.Proofs.Text.Percent
/-!
Addresses as text.  Main statements: `parse_text_iff`, which addresses their text leads back to, and
`parse_text_of_parse`, every address that was read is one of them.
-/

namespace Reconcile

theorem ResourceType.pathLength_le (t : ResourceType) : t.pathLength ≤ 2 := by cases t <;> decide

namespace Container

theorem ofNames_names (c : Container) : ofNames (c.names.map Identifier.text) = c := by
  cases c <;> simp [names, ofNames]

theorem names_ofNames {l : List String} (h : l.length ≤ 2) :
    (ofNames l).names = l.map Identifier.ofText := by
  match l with
  | [] => rfl
  | [d] => rfl
  | [d, s] => rfl
  | _ :: _ :: _ :: _ => simp at h

theorem length_names_ofNames {l : List String} (h : l.length ≤ 2) :
    (ofNames l).names.length = l.length := by rw [names_ofNames h, List.length_map]

end Container

namespace Urn

open Text Fallible

variable {u v : Urn} {account : String} {type : ResourceType} {s path : List Char}
  {params : SortedMap String String}

/-- The names stand in dotted text as they stand alone.  Only the leaf name may leave a quotation
open, and only if no parameters follow it. -/
structure HasGuardedNames (u : Urn) : Prop where
  container : ∀ a ∈ u.container.names, a.IsGuarded ∧ a.IsClosed
  name : u.name.IsGuarded
  closed : u.params ≠ .empty → u.name.IsClosed

/-- No key of a parameter holds a character that would end it. -/
def HasGuardedKeys (params : SortedMap String String) : Prop :=
  ∀ e ∈ params.entries, '&' ∉ e.1.toList ∧ '=' ∉ e.1.toList

/-- What stands after the type in the text of the address leads back to it. -/
structure IsLegible (u : Urn) : Prop where
  depth : u.container.names.length = u.type.pathLength
  names : u.HasGuardedNames
  keys : HasGuardedKeys u.params

/-! ## The dotted name -/

theorem toList_qualifiedName (u : Urn) : u.qualifiedName.toList =
    ['.'].intercalate ((u.container.names.map fun a => a.text.toList) ++ [u.name.text.toList]) := by
  simp [qualifiedName, String.toList_intercalate, Function.comp_def]

theorem readPath_qualifiedName (hdepth : u.container.names.length = u.type.pathLength)
    (hnames : u.HasGuardedNames) (account : String) :
    readPath account u.type u.qualifiedName.toList =
      .ok ⟨account, u.type, u.container, u.name, .empty⟩ := by
  have hsplit : splitUnquoted '.' false u.qualifiedName.toList =
      (u.container.names.map fun a => a.text.toList) ++ [u.name.text.toList] := by
    rw [toList_qualifiedName]
    refine splitUnquoted_intercalate (fun p hp => ?_) (fun p hp => ?_) hnames.name.point
    · obtain ⟨a, ha, rfl⟩ := List.mem_map.mp hp
      exact (hnames.container a ha).1.point
    · obtain ⟨a, ha, rfl⟩ := List.mem_map.mp hp
      exact (hnames.container a ha).2
  have hempty : (splitUnquoted '.' false u.qualifiedName.toList).any List.isEmpty = false := by
    rw [hsplit, List.any_eq_false]
    intro p hp
    rw [List.isEmpty_iff]
    rcases List.mem_append.mp hp with hp | hp
    · obtain ⟨a, -, rfl⟩ := List.mem_map.mp hp
      exact a.text_ne_empty
    · rw [List.mem_singleton.mp hp]
      exact u.name.text_ne_empty
  have hlength : (splitUnquoted '.' false u.qualifiedName.toList).length =
      u.type.pathLength + 1 := by
    rw [hsplit, List.length_append, List.length_map, hdepth, List.length_singleton]
  have htexts : (splitUnquoted '.' false u.qualifiedName.toList).map String.ofList =
      u.container.names.map Identifier.text ++ [u.name.text] := by
    rw [hsplit]
    simp [Function.comp_def]
  simp [readPath, hempty, hlength, htexts, ofNames, Container.ofNames_names]

theorem exists_of_readPath (h : readPath account type path = .ok u) :
    ∃ first last, path = ['.'].intercalate (first ++ [last]) ∧
      (∀ p ∈ first, isGuarded '.' false p) ∧ (∀ p ∈ first, endsQuoted false p = false) ∧
      isGuarded '.' false last ∧ first.length = type.pathLength ∧
      u = ofNames account type (first.map String.ofList) (String.ofList last) := by
  obtain ⟨first, last, hsplit, hpath, hfirst, hclosed, hlast⟩ := exists_pieces '.' path
  refine ⟨first, last, hpath, hfirst, hclosed, hlast, ?_⟩
  simp only [readPath, hsplit] at h
  split at h
  · cases h
  next hparts =>
    have hlength : first.length = type.pathLength := by
      simp only [List.length_append, List.length_singleton, Bool.or_eq_true, decide_eq_true_eq,
        not_or, not_not] at hparts
      omega
    refine ⟨hlength, ?_⟩
    rw [← Except.ok.inj h]
    simp

/-! ## Parameters -/

def pairText (e : String × String) : List Char := (e.1 ++ "=" ++ paramText e.2).toList

theorem toList_pairText (e : String × String) :
    pairText e = e.1.toList ++ '=' :: (paramText e.2).toList := by simp [pairText]

theorem decode?_paramText (value : String) :
    Percent.decode? (paramText value).toList = some value.toList := by
  rw [paramText]
  split
  · rw [String.toList_ofList, Percent.decode?_encode]
  next hreserved =>
    refine Percent.decode?_of_not_mem fun hmem => hreserved ?_
    exact List.any_eq_true.mpr ⟨'%', hmem, rfl⟩

theorem amp_not_mem_paramText (value : String) : '&' ∉ (paramText value).toList := by
  intro hmem
  rw [paramText] at hmem
  split at hmem
  · rw [String.toList_ofList] at hmem
    rcases Percent.eq_or_isUnreserved_of_mem_encode hmem with h | h
    · cases h
    · exact absurd h (by decide)
  next hreserved => exact hreserved (List.any_eq_true.mpr ⟨'&', hmem, rfl⟩)

theorem readParam_pairText {e : String × String} (h : '=' ∉ e.1.toList) :
    readParam (pairText e) = .ok e := by
  rw [readParam, toList_pairText, cutAt?_append h]
  simp [decode?_paramText]

def paramsText (params : SortedMap String String) : List Char :=
  ['&'].intercalate (params.entries.map pairText)

theorem readParams_paramsText (h : HasGuardedKeys params) :
    readParams (paramsText params) = .ok params := by
  have hpieces : (splitAll '&' (paramsText params)).filter (fun p => !p.isEmpty) =
      params.entries.map pairText := by
    by_cases hnil : params.entries.map pairText = []
    · rw [paramsText, hnil]
      rfl
    · rw [paramsText, splitAll_intercalate hnil]
      · refine List.filter_eq_self.mpr fun p hp => ?_
        obtain ⟨e, -, rfl⟩ := List.mem_map.mp hp
        simp [toList_pairText]
      · intro p hp
        obtain ⟨e, he, rfl⟩ := List.mem_map.mp hp
        rw [toList_pairText, List.mem_append, List.mem_cons, not_or, not_or]
        exact ⟨(h e he).1, by decide, amp_not_mem_paramText e.2⟩
  have hread : (params.entries.map pairText).mapM readParam = .ok params.entries := by
    rw [mapM_eq_ok_iff, List.forall₂_map_left_iff, List.forall₂_same]
    exact fun e he => readParam_pairText (h e he).2
  rw [readParams, hpieces, hread]
  exact congrArg Except.ok params.ofList_entries

theorem keys_of_readParam {pair : List Char} {e : String × String} (h : readParam pair = .ok e)
    (hpair : '&' ∉ pair) : '&' ∉ e.1.toList ∧ '=' ∉ e.1.toList := by
  rw [readParam] at h
  split at h
  · cases h
  next key value hcut =>
    split at h
    · cases h
    · obtain rfl := Except.ok.inj h
      rw [String.toList_ofList]
      rw [eq_of_cutAt? hcut] at hpair
      exact ⟨fun hmem => hpair (List.mem_append_left _ hmem), not_mem_of_cutAt? hcut⟩

theorem hasGuardedKeys_of_readParams (h : readParams s = .ok params) : HasGuardedKeys params := by
  obtain ⟨entries, hentries, hparams⟩ := bind_eq_ok.mp h
  obtain rfl := pure_eq_ok.mp hparams
  intro e he
  obtain ⟨pair, hpair, hread⟩ := Lists.exists_left_of_forall₂ (mapM_eq_ok_iff.mp hentries)
    (SortedMap.mem_of_mem_ofList he)
  exact keys_of_readParam hread (not_mem_of_mem_splitAll (List.mem_filter.mp hpair).1)

/-! ## The name and the parameters -/

def nameText (u : Urn) : List Char := (u.qualifiedName ++ queryText u.params).toList

theorem toList_nameText (u : Urn) : u.nameText =
    u.qualifiedName.toList ++ if u.params = .empty then [] else '?' :: paramsText u.params := by
  have hempty : u.params.isEmpty = true ↔ u.params = .empty := by
    rw [SortedMap.isEmpty, List.isEmpty_iff]
    exact ⟨fun h => SortedMap.ext h, fun h => h ▸ rfl⟩
  rw [nameText, queryText, String.toList_append]
  by_cases h : u.params = .empty
  · rw [if_pos (hempty.mpr h), if_pos h, String.toList_empty]
  · rw [if_neg (mt hempty.mp h), if_neg h, String.toList_append, String.toList_intercalate,
      List.map_map]
    rfl

theorem endsQuoted_qualifiedName (hnames : u.HasGuardedNames) :
    endsQuoted false u.qualifiedName.toList = endsQuoted false u.name.text.toList := by
  rw [toList_qualifiedName]
  refine endsQuoted_intercalate (by decide) fun p hp => ?_
  obtain ⟨a, ha, rfl⟩ := List.mem_map.mp hp
  exact (hnames.container a ha).2

theorem isGuarded_qualifiedName (hnames : u.HasGuardedNames) :
    isGuarded '?' false u.qualifiedName.toList := by
  rw [toList_qualifiedName]
  refine (isGuarded_intercalate_iff (by decide) (fun p hp => ?_) (by decide)).mpr
    ⟨fun p hp => ?_, hnames.name.mark⟩
  · obtain ⟨a, ha, rfl⟩ := List.mem_map.mp hp
    exact (hnames.container a ha).2
  · obtain ⟨a, ha, rfl⟩ := List.mem_map.mp hp
    exact (hnames.container a ha).1.mark

theorem cutQuery_nameText (hnames : u.HasGuardedNames) :
    cutQuery u.nameText = (u.qualifiedName.toList, paramsText u.params) := by
  have hguarded := isGuarded_qualifiedName hnames
  rw [cutQuery, toList_nameText]
  by_cases h : u.params = .empty
  · rw [if_pos h, List.append_nil, cutUnquoted?_eq_none_iff.mpr hguarded, h]
    rfl
  · have hend := (endsQuoted_qualifiedName hnames).trans (hnames.closed h)
    rw [if_neg h, cutUnquoted?_append hguarded hend]
    rfl

theorem readName_nameText (h : u.IsLegible) (account : String) :
    readName account u.type u.nameText = .ok { u with account } := by
  rw [readName, cutQuery_nameText h.names, readPath_qualifiedName h.depth h.names,
    readParams_paramsText h.keys]
  rfl

theorem ofReference_reference (h : u.IsLegible) (hparams : u.params = .empty) (account : String) :
    ofReference account u.reference = .ok { u with account } := by
  have hname : u.nameText = u.qualifiedName.toList := by
    rw [toList_nameText, if_pos hparams, List.append_nil]
  rw [ofReference, cutAt?_reference]
  show (readType u.type.tag.toList >>= fun type => readName account type _) = _
  rw [readType_tag, ← hname]
  exact readName_nameText h account

/-- The short form names the resource of the account that has no parameters. -/
theorem ofReference_of_isLegible (h : u.IsLegible) (account : String) :
    ofReference account u.reference = .ok { u with account, params := .empty } := by
  have hbare : IsLegible { u with params := .empty } :=
    ⟨h.depth, ⟨h.names.container, h.names.name, fun hne => absurd rfl hne⟩,
      fun _ hentry => nomatch hentry⟩
  exact ofReference_reference hbare rfl account

theorem isLegible_of_readName (h : readName account type s = .ok u) :
    u.account = account ∧ u.type = type ∧ u.IsLegible := by
  obtain ⟨named, hnamed, h⟩ := bind_eq_ok.mp h
  obtain ⟨params, hparams, h⟩ := bind_eq_ok.mp h
  obtain rfl := pure_eq_ok.mp h
  obtain ⟨first, last, hpath, hfirst, hclosed, hlast, hlength, rfl⟩ := exists_of_readPath hnamed
  have hle : (first.map String.ofList).length ≤ 2 := by
    rw [List.length_map, hlength]
    exact type.pathLength_le
  -- The path ends at the first question mark outside quotes, and is closed if there is one.
  have hcut : isGuarded '?' false (cutQuery s).1 ∧
      (params ≠ .empty → endsQuoted false (cutQuery s).1 = false) := by
    rw [cutQuery] at hparams ⊢
    cases hmark : cutUnquoted? '?' false s with
    | none =>
      rw [hmark] at hparams
      have hnone : params = .empty := (Except.ok.inj hparams).symm
      exact ⟨cutUnquoted?_eq_none_iff.mp hmark, fun hne => absurd hnone hne⟩
    | some p =>
      obtain ⟨-, hguarded, hend⟩ := cutUnquoted?_eq_some (a := p.1) (b := p.2) hmark
      exact ⟨hguarded, fun _ => hend⟩
  rw [hpath, isGuarded_intercalate_iff (by decide) hclosed (by decide),
    endsQuoted_intercalate (by decide) hclosed] at hcut
  obtain ⟨⟨hmarks, hmark⟩, hend⟩ := hcut
  refine ⟨rfl, rfl, ?_, ⟨fun a ha => ?_, ?_, fun hne => ?_⟩, hasGuardedKeys_of_readParams hparams⟩
  · show (Container.ofNames _).names.length = _
    rw [Container.length_names_ofNames hle, List.length_map, hlength]
    rfl
  · have ha : a ∈ (Container.ofNames (first.map String.ofList)).names := ha
    rw [Container.names_ofNames hle, List.map_map] at ha
    obtain ⟨p, hp, rfl⟩ := List.mem_map.mp ha
    exact ⟨Identifier.isGuarded_ofText (hfirst p hp) (hmarks p hp),
      Identifier.isClosed_ofText (hclosed p hp)⟩
  · exact Identifier.isGuarded_ofText hlast hmark
  · exact Identifier.isClosed_ofText (hend hne)

/-! ## The whole text -/

theorem toList_text (u : Urn) : u.text.toList =
    "urn".toList ++ ':' :: ':' :: (u.account.toList ++ ':' :: (u.type.tag.toList ++
      '/' :: u.nameText)) := by
  simp [text, nameText]

theorem parse_text_of_isLegible (haccount : ':' ∉ u.account.toList) (h : u.IsLegible) :
    parse u.text = .ok u := by
  have hcut : cutAccount? u.text.toList =
      some (u.account.toList, u.type.tag.toList ++ '/' :: u.nameText) := by
    rw [toList_text, cutAccount?, cutAt?_append (by decide)]
    show (cutAt? ':' ([] ++ ':' :: _)).bind (fun p => cutAt? ':' p.2) = _
    rw [cutAt?_append List.not_mem_nil]
    exact cutAt?_append haccount
  have hslash : cutAt? '/' (u.type.tag.toList ++ '/' :: u.nameText) =
      some (u.type.tag.toList, u.nameText) := cutAt?_append (slash_not_mem_tag u.type)
  simp only [parse, hcut, hslash]
  rw [readType_tag, String.ofList_toList]
  exact readName_nameText h u.account

theorem isLegible_of_parse {text : String} (h : parse text = .ok u) :
    ':' ∉ u.account.toList ∧ u.IsLegible := by
  rw [parse] at h
  split at h
  · cases h
  next account rest hcut =>
    split at h
    · cases h
    next kind name hslash =>
      obtain ⟨type, -, h⟩ := bind_eq_ok.mp h
      obtain ⟨haccount, -, hlegible⟩ := isLegible_of_readName h
      refine ⟨?_, hlegible⟩
      simp only [cutAccount?, Option.bind_eq_bind, Option.bind_eq_some_iff] at hcut
      obtain ⟨scheme, -, hcut⟩ := hcut
      split at hcut
      · simp only [Option.bind_eq_some_iff] at hcut
        obtain ⟨organization, -, hcut⟩ := hcut
        rw [haccount, String.toList_ofList]
        exact not_mem_of_cutAt? hcut
      · cases hcut

/-- The text of an address leads back to it exactly if the text of some address could. -/
theorem parse_text_iff : parse u.text = .ok u ↔ ':' ∉ u.account.toList ∧ u.IsLegible :=
  ⟨isLegible_of_parse, fun h => parse_text_of_isLegible h.1 h.2⟩

/-- An address that was read is read again from its own text, so that addresses that were read and
have one text are equal. -/
theorem parse_text_of_parse {text : String} (h : parse text = .ok u) :
    parse u.text = .ok u ∧ ∀ text v, parse text = .ok v → v.text = u.text → v = u := by
  have hself {text : String} {v : Urn} (hv : parse text = .ok v) : parse v.text = .ok v :=
    parse_text_iff.mpr (isLegible_of_parse hv)
  refine ⟨hself h, fun text v hv heq => ?_⟩
  have hread := hself hv
  rw [heq, hself h] at hread
  exact (Except.ok.inj hread).symm

/-- A database role whose name opens a quotation that nothing closes, so that the question mark in
it starts no parameters. -/
def openName : String := "urn:org:A:Database-Role/ db .\"a\"b\"?x"

def openNameUrn : Urn := .ofNames "A" .databaseRole ["DB"] "\"\"\"a\"\"b\"\"?x\""

theorem parse_openName : parse openName = .ok openNameUrn := by rfl

theorem parse_text_openNameUrn : parse openName = .ok openNameUrn ∧
    openNameUrn.text = "urn::A:database_role/DB.\"\"\"a\"\"b\"\"?x\"" ∧
    parse openNameUrn.text = .ok openNameUrn :=
  ⟨parse_openName, by rfl, (parse_text_of_parse parse_openName).1⟩

end Urn
end Reconcile
