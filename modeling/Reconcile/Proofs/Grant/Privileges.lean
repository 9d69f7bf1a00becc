import Reconcile.Proofs.Grant.Reported
import Reconcile.Proofs.Text.Words
/-!
The privileges that a declared value denotes.  Main statement: `expand_canonical`, they are a list
without repetitions of canonical names, in the order in which the value first denotes them, which
depends neither on spelling nor on repetitions and is its own expansion.
-/

namespace Reconcile

open Fallible

namespace Privilege

variable {label text name : String} {value : Option Json} {type : ResourceType}
  {names privileges : List String}

/-! ## Canonical names -/

/-- The name is in upper case, with single blanks between its words. -/
structure IsCanonical (name : String) : Prop where
  upper : Text.upperCase name = name
  spaced : " ".intercalate ((Text.words name.toList).map String.ofList) = name

theorem isWord_map_upper {word : List Char} (h : Text.IsWord word) :
    Text.IsWord (word.map Text.upper) := by
  refine ⟨by simpa using h.1, fun c hc => ?_⟩
  obtain ⟨d, hd, rfl⟩ := List.mem_map.mp hc
  rw [Text.isBlank_upper]
  exact h.2 d hd

theorem words_canonicalName (text : String) : Text.words (canonicalName text).toList =
    (Text.words text.toList).map (List.map Text.upper) := by
  rw [toList_canonicalName]
  refine Text.words_intercalate fun w hw => ?_
  obtain ⟨word, hword, rfl⟩ := List.mem_map.mp hw
  exact isWord_map_upper (Text.isWord_of_mem_words hword)

theorem isCanonical_canonicalName (text : String) : IsCanonical (canonicalName text) where
  upper := String.toList_injective (by simp [canonicalName])
  spaced := by
    have hwords (ws : List (List Char)) : (ws.map String.ofList).map String.toList = ws := by
      simp [Function.comp_def]
    refine String.toList_injective ?_
    rw [String.toList_intercalate, hwords, words_canonicalName, toList_canonicalName]
    rfl

theorem IsCanonical.canonicalName_eq (h : IsCanonical name) : canonicalName name = name := by
  rw [canonicalName, h.spaced, h.upper]

/-! ## Expansion -/

/-- The privileges that one text stands for. -/
def standsFor (type : ResourceType) (text : String) : List String :=
  if isAll (canonicalName text) then allOn type else [canonicalName text]

def IsGrantable (type : ResourceType) (text : String) : Prop :=
  canonicalName text ≠ ownership ∧ (isAll (canonicalName text) → allOn type ≠ [])

theorem denoted_eq_ok_iff : denoted type text = .ok privileges ↔
    IsGrantable type text ∧ standsFor type text = privileges := by
  rw [denoted, standsFor, IsGrantable]
  by_cases howner : canonicalName text = ownership
  · rw [if_pos howner]
    exact iff_of_false (by simp) fun h => h.1.1 howner
  rw [if_neg howner]
  by_cases hall : isAll (canonicalName text)
  · rw [if_pos hall, if_pos hall]
    by_cases hnone : allOn type = []
    · rw [if_pos (List.isEmpty_iff.mpr hnone)]
      exact iff_of_false (by simp) fun h => h.1.2 hall hnone
    · rw [if_neg (mt List.isEmpty_iff.mp hnone), Except.ok.injEq]
      exact (and_iff_right ⟨howner, fun _ => hnone⟩).symm
  · rw [if_neg hall, if_neg hall, Except.ok.injEq]
    exact (and_iff_right ⟨howner, fun h => absurd h hall⟩).symm

theorem mapM_denoted_eq_ok_iff {lists : List (List String)} :
    names.mapM (denoted type) = .ok lists ↔
      (∀ text ∈ names, IsGrantable type text) ∧ names.map (standsFor type) = lists := by
  rw [mapM_eq_ok_iff]
  induction names generalizing lists with
  | nil => simp [eq_comm]
  | cons text names ih =>
    rw [List.forall₂_cons_left_iff, List.forall_mem_cons, List.map_cons]
    constructor
    · intro h
      obtain ⟨own, others, hown, hothers, rfl⟩ := h
      obtain ⟨htext, rfl⟩ := denoted_eq_ok_iff.mp hown
      obtain ⟨hnames, rfl⟩ := ih.mp hothers
      exact ⟨⟨htext, hnames⟩, rfl⟩
    · intro h
      obtain ⟨⟨htext, hnames⟩, rfl⟩ := h
      exact ⟨_, _, denoted_eq_ok_iff.mpr ⟨htext, rfl⟩, ih.mpr ⟨hnames, rfl⟩, rfl⟩

theorem expand_eq_ok_iff : expand label value type = .ok privileges ↔
    ∃ names, texts value = .ok names ∧ names ≠ [] ∧ (∀ text ∈ names, IsGrantable type text) ∧
      (names.flatMap (standsFor type)).eraseDups = privileges := by
  simp only [expand, mapError_eq_ok_iff, bind_eq_ok]
  refine exists_congr fun names => and_congr_right fun _ => ?_
  by_cases hnone : names = []
  · rw [if_pos (List.isEmpty_iff.mpr hnone)]
    refine iff_of_false (fun h => ?_) fun h => h.1 hnone
    cases h
  · rw [if_neg (mt List.isEmpty_iff.mp hnone), and_iff_right hnone]
    simp only [bind_eq_ok, pure_eq_ok, mapM_denoted_eq_ok_iff]
    constructor
    · rintro ⟨lists, ⟨hnames, rfl⟩, rfl⟩
      exact ⟨hnames, rfl⟩
    · rintro ⟨hnames, rfl⟩
      exact ⟨_, ⟨hnames, rfl⟩, rfl⟩

/-- The name of one privilege: in canonical form, and neither ownership nor all privileges in any
spelling. -/
structure IsConcrete (name : String) : Prop where
  canonical : IsCanonical name
  not_ownership : canonicalName name ≠ ownership
  not_all : ¬ isAll (canonicalName name)

theorem IsConcrete.standsFor_eq (h : IsConcrete name) (type : ResourceType) :
    standsFor type name = [name] := by
  rw [standsFor, if_neg h.not_all, h.canonical.canonicalName_eq]

theorem IsConcrete.isGrantable (h : IsConcrete name) (type : ResourceType) :
    IsGrantable type name := ⟨h.not_ownership, fun hall => absurd hall h.not_all⟩

theorem isConcrete_of_mem_allOn (h : name ∈ allOn type) : IsConcrete name := by
  obtain ⟨hname, hall⟩ := canonicalName_of_mem_allOn h
  have howner : name ≠ ownership := by
    rintro rfl
    revert h
    cases type <;> decide
  exact ⟨hname ▸ isCanonical_canonicalName name, hname.symm ▸ howner, hname.symm ▸ hall⟩

theorem isConcrete_of_mem_standsFor (htext : IsGrantable type text)
    (h : name ∈ standsFor type text) : IsConcrete name := by
  rw [standsFor] at h
  split at h
  · exact isConcrete_of_mem_allOn h
  next hall =>
    obtain rfl := List.mem_singleton.mp h
    have hname := isCanonical_canonicalName text
    exact ⟨hname, hname.canonicalName_eq.symm ▸ htext.1, hname.canonicalName_eq.symm ▸ hall⟩

/-! ## Spelling -/

/-- The texts have the same words, up to the case of ASCII letters. -/
def SameWords (a b : String) : Prop :=
  (Text.words a.toList).map (List.map Text.upper) = (Text.words b.toList).map (List.map Text.upper)

theorem SameWords.canonicalName_eq {a b : String} (h : SameWords a b) :
    canonicalName a = canonicalName b := by
  refine String.toList_injective ?_
  rw [toList_canonicalName, toList_canonicalName, h]

/-- One text spelled differently, one that was there before repeated, or all privileges spelled
out. -/
inductive Respelled (type : ResourceType) : List String → List String → Prop
  | spelling (front rear : List String) {a b : String} (h : SameWords a b) :
    Respelled type (front ++ a :: rear) (front ++ b :: rear)
  | repetition (front rear : List String) {a : String} (h : a ∈ front) :
    Respelled type (front ++ rear) (front ++ a :: rear)
  | all (front rear : List String) {a : String} (h : isAll (canonicalName a)) :
    Respelled type (front ++ a :: rear) (front ++ allOn type ++ rear)

theorem standsFor_allOn (type : ResourceType) :
    (allOn type).flatMap (standsFor type) = allOn type := by
  have hself : ∀ p ∈ allOn type, standsFor type p = [p] := fun p hp =>
    (isConcrete_of_mem_allOn hp).standsFor_eq type
  rw [List.flatMap_congr hself, List.flatMap_singleton']

theorem Respelled.expansion_eq {names' : List String} (h : Respelled type names names') :
    (names'.flatMap (standsFor type)).eraseDups = (names.flatMap (standsFor type)).eraseDups := by
  cases h with
  | spelling front rear h =>
    simp only [List.flatMap_append, List.flatMap_cons, standsFor, h.canonicalName_eq]
  | @repetition front rear a h =>
    simp only [List.flatMap_append, List.flatMap_cons, ← List.append_assoc]
    exact Lists.eraseDups_append_append fun p hp => List.mem_flatMap.mpr ⟨a, h, hp⟩
  | all front rear h =>
    simp only [List.flatMap_append, List.flatMap_cons, standsFor_allOn, List.append_assoc]
    rw [standsFor, if_pos h]

theorem Respelled.isGrantable {names' : List String} (h : Respelled type names names')
    (hnames : ∀ text ∈ names, IsGrantable type text) : ∀ text ∈ names', IsGrantable type text := by
  cases h with
  | spelling front rear h =>
    simp only [List.forall_mem_append, List.forall_mem_cons, IsGrantable, h.canonicalName_eq]
      at hnames ⊢
    exact hnames
  | repetition front rear h =>
    simp only [List.forall_mem_append, List.forall_mem_cons] at hnames ⊢
    exact ⟨hnames.1, hnames.1 _ h, hnames.2⟩
  | all front rear h =>
    simp only [List.forall_mem_append, List.forall_mem_cons] at hnames ⊢
    exact ⟨⟨hnames.1, fun p hp => (isConcrete_of_mem_allOn hp).isGrantable type⟩, hnames.2.2⟩

theorem Respelled.ne_nil {names' : List String} (h : Respelled type names names')
    (hnames : ∀ text ∈ names, IsGrantable type text) (hne : names ≠ []) : names' ≠ [] := by
  cases h with
  | spelling front rear h => simp
  | repetition front rear h => simp
  | @all front rear a h =>
    have hall := (hnames a (List.mem_append_right _ List.mem_cons_self)).2 h
    simp [hall]

/-- Spelling, repetitions and `ALL` in place of what it stands for do not count. -/
theorem expand_of_respelled {names' : List String} {label' : String} {value' : Option Json}
    (h : expand label value type = .ok privileges) (hnames : texts value = .ok names)
    (hnames' : texts value' = .ok names')
    (hrespelled : Relation.ReflTransGen (Respelled type) names names') :
    expand label' value' type = .ok privileges := by
  obtain ⟨_, htexts, hne, hgrantable, hall⟩ := expand_eq_ok_iff.mp h
  obtain rfl := Except.ok.inj (hnames.symm.trans htexts)
  have hkept : names' ≠ [] ∧ (∀ text ∈ names', IsGrantable type text) ∧
      (names'.flatMap (standsFor type)).eraseDups = privileges := by
    clear hnames'
    induction hrespelled with
    | refl => exact ⟨hne, hgrantable, hall⟩
    | tail _ hstep ih =>
      obtain ⟨hne, hgrantable, hall⟩ := ih
      exact ⟨hstep.ne_nil hgrantable hne, hstep.isGrantable hgrantable,
        hstep.expansion_eq.trans hall⟩
  exact expand_eq_ok_iff.mpr ⟨names', hnames', hkept⟩

theorem texts_map_string (names : List String) :
    texts (some (.array (names.map .string))) = .ok names := by
  rw [texts, mapM_eq_ok_iff, List.forall₂_map_left_iff, List.forall₂_same]
  exact fun _ _ => rfl

theorem expand_of_isConcrete (hne : privileges ≠ []) (hnodup : privileges.Nodup)
    (hconcrete : ∀ p ∈ privileges, IsConcrete p) (label : String) :
    expand label (some (.array (privileges.map .string))) type = .ok privileges := by
  have hself : ∀ p ∈ privileges, standsFor type p = [p] := fun p hp =>
    (hconcrete p hp).standsFor_eq type
  refine expand_eq_ok_iff.mpr ⟨privileges, texts_map_string privileges, hne,
    fun p hp => (hconcrete p hp).isGrantable type, ?_⟩
  rw [List.flatMap_congr hself, List.flatMap_singleton', Lists.eraseDups_of_nodup hnodup]

/-- An expansion has canonical names without repetitions: those that the texts stand for, in the
order in which they first do.  It is its own expansion, and texts that are spelled or repeated in
another way, or that spell out what `ALL` stands for, have the same one. -/
theorem expand_canonical (h : expand label value type = .ok privileges) :
    privileges ≠ [] ∧ privileges.Nodup ∧ (∀ p ∈ privileges, IsConcrete p) ∧
    (∃ names, texts value = .ok names ∧
      (∀ p, p ∈ privileges ↔ ∃ text ∈ names, p ∈ standsFor type text) ∧
      privileges.Pairwise fun p q => (names.flatMap (standsFor type)).idxOf p <
        (names.flatMap (standsFor type)).idxOf q) ∧
    (∀ label', expand label' (some (.array (privileges.map .string))) type = .ok privileges) ∧
    ∀ names names' value' label', texts value = .ok names → texts value' = .ok names' →
      Relation.ReflTransGen (Respelled type) names names' →
      expand label' value' type = .ok privileges := by
  obtain ⟨hnodup, hne⟩ := expand_spec h
  obtain ⟨names, hnames, -, hgrantable, rfl⟩ := expand_eq_ok_iff.mp h
  have hmem (p : String) : p ∈ (names.flatMap (standsFor type)).eraseDups ↔
      ∃ text ∈ names, p ∈ standsFor type text := by
    rw [List.mem_eraseDups, List.mem_flatMap]
  have hconcrete : ∀ p ∈ (names.flatMap (standsFor type)).eraseDups, IsConcrete p := by
    intro p hp
    obtain ⟨text, htext, hp⟩ := (hmem p).mp hp
    exact isConcrete_of_mem_standsFor (hgrantable text htext) hp
  exact ⟨hne, hnodup, hconcrete, ⟨names, hnames, hmem, Lists.pairwise_idxOf_eraseDups _⟩,
    expand_of_isConcrete hne hnodup hconcrete,
    fun _ _ _ _ hnames hnames' hrespelled => expand_of_respelled h hnames hnames' hrespelled⟩

theorem expand_monitorAndAll :
    expand "grant" (some (.array [.string "monitor", .string "all  Privileges"])) .warehouse =
      .ok ["MONITOR", "APPLYBUDGET", "MODIFY", "OPERATE", "USAGE"] ∧
    expand "grant" (some (.array [.string "monitor", .string "all  Privileges",
      .string " Monitor "])) .warehouse =
      .ok ["MONITOR", "APPLYBUDGET", "MODIFY", "OPERATE", "USAGE"] := by
  have h : expand "grant" (some (.array [.string "monitor", .string "all  Privileges"]))
      .warehouse = .ok ["MONITOR", "APPLYBUDGET", "MODIFY", "OPERATE", "USAGE"] := by rfl
  refine ⟨h, ?_⟩
  have hagain : Respelled .warehouse ["monitor", "all  Privileges"]
      ["monitor", "all  Privileges", "monitor"] :=
    .repetition ["monitor", "all  Privileges"] [] List.mem_cons_self
  have hspaced : Respelled .warehouse ["monitor", "all  Privileges", "monitor"]
      ["monitor", "all  Privileges", " Monitor "] :=
    .spelling ["monitor", "all  Privileges"] [] (show SameWords "monitor" " Monitor " by rfl)
  obtain ⟨-, -, -, -, -, hrespelled⟩ := expand_canonical h
  exact hrespelled _ _ _ _ rfl rfl (.tail (.single hagain) hspaced)

end Privilege
end Reconcile
