import Mathlib.Data.List.Nodup
import Mathlib.Data.List.Perm.Basic
import Reconcile.Collection.SortedSet
/-!
Maps and sets in order as collections: what a look-up says of the entries, and which elements a set
has after it was changed.  Main statement: `SortedMap.ext_get?`, maps in which every look-up agrees
are equal.
-/

namespace Reconcile

namespace SortedMap

variable {κ α : Type} [Ord κ]

theorem contains_iff {m : SortedMap κ α} {k : κ} : m.contains k ↔ ∃ v, m.get? k = some v := by
  rw [contains, Option.isSome_iff_exists]

theorem mem_of_mem_foldl_insert [Std.TransOrd κ] {l : List (κ × α)} {m : SortedMap κ α}
    {e : κ × α} (h : e ∈ (l.foldl (fun m e => m.insert e.1 e.2) m).entries) :
    e ∈ l ∨ e ∈ m.entries := by
  induction l generalizing m with
  | nil => exact .inr h
  | cons d l ih =>
    rcases ih h with h | h
    · exact .inl (List.mem_cons_of_mem _ h)
    · rcases mem_place h with rfl | h
      · exact .inl List.mem_cons_self
      · exact .inr h

theorem mem_of_mem_ofList [Std.TransOrd κ] {l : List (κ × α)} {e : κ × α}
    (h : e ∈ (ofList l).entries) : e ∈ l :=
  (mem_of_mem_foldl_insert h).resolve_right fun h => nomatch h

variable [Std.LawfulEqOrd κ]

theorem nodup_keys (m : SortedMap κ α) : m.keys.Nodup := by
  rw [keys, List.Nodup, List.pairwise_map]
  refine m.increasing.imp fun h heq => ?_
  rw [heq, Std.compare_self (α := κ)] at h
  cases h

theorem nodup_entries (m : SortedMap κ α) : m.entries.Nodup := m.nodup_keys.of_map _

theorem get?_eq_some_iff {m : SortedMap κ α} {k : κ} {v : α} :
    m.get? k = some v ↔ (k, v) ∈ m.entries := by
  obtain ⟨entries, hinc⟩ := m
  simp only [get?]
  induction entries with
  | nil => simp
  | cons e rest ih =>
    obtain ⟨hlt, hrest⟩ := List.pairwise_cons.mp hinc
    rw [List.find?_cons, List.mem_cons]
    by_cases hk : e.1 = k
    · subst hk
      have hnot : (e.1, v) ∉ rest := by
        intro hmem
        have := hlt _ hmem
        rw [Std.compare_self (α := κ)] at this
        cases this
      simp [hnot, Prod.ext_iff, eq_comm]
    · have hcmp : (compare e.1 k == .eq) = false := by simpa using hk
      have hne : (k, v) ≠ e := fun h => hk (h ▸ rfl)
      rw [hcmp]
      simpa [hne] using ih hrest

theorem ext_get? [Std.TransOrd κ] {m n : SortedMap κ α} (h : ∀ k, m.get? k = n.get? k) : m = n := by
  have hmem (e : κ × α) : e ∈ m.entries ↔ e ∈ n.entries := by
    rw [← get?_eq_some_iff (k := e.1) (v := e.2), ← get?_eq_some_iff (k := e.1) (v := e.2), h]
  have hperm : m.entries.Perm n.entries :=
    (List.perm_ext_iff_of_nodup (nodup_entries m) (nodup_entries n)).mpr hmem
  refine ext (hperm.eq_of_pairwise (fun a b _ _ hab hba => ?_) m.increasing n.increasing)
  have := Std.OrientedCmp.gt_of_lt hab
  rw [this] at hba
  cases hba

/-- Of entries that are put in one after another, the last one of a key counts. -/
theorem get?_foldl_insert [Std.TransOrd κ] [DecidableEq κ] (l : List (κ × α)) (m : SortedMap κ α)
    (k : κ) : (l.foldl (fun m e => m.insert e.1 e.2) m).get? k =
      ((l.reverse.find? fun e => e.1 = k).map (·.2)).or (m.get? k) := by
  induction l generalizing m with
  | nil => rfl
  | cons e l ih =>
    rw [List.foldl_cons, ih, List.reverse_cons, List.find?_append, get?_insert]
    cases hlater : l.reverse.find? fun e => e.1 = k with
    | some d => rfl
    | none =>
      by_cases he : e.1 = k
      · simp [he]
      · simp [he]

theorem contains_ofList_iff [Std.TransOrd κ] [DecidableEq κ] {l : List (κ × α)} {k : κ} :
    (ofList l).contains k ↔ k ∈ l.map Prod.fst := by
  rw [contains, ofList, get?_foldl_insert, get?_empty, Option.or_none, Option.isSome_map,
    List.find?_isSome]
  simp

/-- Where no key has two values, the map of a list has the entries of the list. -/
theorem get?_ofList_iff [Std.TransOrd κ] [DecidableEq κ] {l : List (κ × α)} {k : κ} {v : α}
    (h : ∀ d ∈ l, ∀ e ∈ l, d.1 = e.1 → d.2 = e.2) : (ofList l).get? k = some v ↔ (k, v) ∈ l := by
  rw [ofList, get?_foldl_insert, get?_empty, Option.or_none, Option.map_eq_some_iff]
  constructor
  · intro hlast
    obtain ⟨e, he, rfl⟩ := hlast
    obtain rfl : e.1 = k := by simpa using List.find?_some he
    exact List.mem_reverse.mp (List.mem_of_find?_eq_some he)
  · intro hmem
    have hsome : (l.reverse.find? fun e => e.1 = k).isSome :=
      List.find?_isSome.mpr ⟨(k, v), List.mem_reverse.mpr hmem, by simp⟩
    obtain ⟨e, he⟩ := Option.isSome_iff_exists.mp hsome
    have hkey : e.1 = k := by simpa using List.find?_some he
    exact ⟨e, he, h e (List.mem_reverse.mp (List.mem_of_find?_eq_some he)) _ hmem hkey⟩

theorem get?_ofList_append [Std.TransOrd κ] [DecidableEq κ] {front rear : List (κ × α)} {k : κ}
    {v : α} (hkey : ∃ e ∈ rear, e.1 = k) (hvalue : ∀ e ∈ rear, e.2 = v) :
    (ofList (front ++ rear)).get? k = some v := by
  have hsome : (rear.reverse.find? fun e => e.1 = k).isSome := by
    obtain ⟨e, he, hk⟩ := hkey
    exact List.find?_isSome.mpr ⟨e, List.mem_reverse.mpr he, by simp [hk]⟩
  obtain ⟨e, he⟩ := Option.isSome_iff_exists.mp hsome
  have hv := hvalue e (List.mem_reverse.mp (List.mem_of_find?_eq_some he))
  rw [ofList, get?_foldl_insert, List.reverse_append, List.find?_append, he]
  exact congrArg some hv

theorem ofList_entries [Std.TransOrd κ] [DecidableEq κ] (m : SortedMap κ α) :
    ofList m.entries = m := by
  refine ext_get? fun k => Option.ext fun v => ?_
  have hkeys (d : κ × α) (hd : d ∈ m.entries) (e : κ × α) (he : e ∈ m.entries) (h : d.1 = e.1) :
      d.2 = e.2 := congrArg Prod.snd (List.inj_on_of_nodup_map m.nodup_keys hd he h)
  rw [get?_ofList_iff hkeys, get?_eq_some_iff]

theorem get?_mapValues {β : Type} (m : SortedMap κ α) (f : κ → α → β) (k : κ) :
    (m.mapValues f).get? k = (m.get? k).map (f k) := by
  rw [get?, get?, mapValues, List.find?_map]
  show ((m.entries.find? fun e => compare e.1 k == .eq).map _).map _ = _
  cases hfind : m.entries.find? fun e => compare e.1 k == .eq with
  | none => rfl
  | some e =>
    have hk : e.1 = k := by simpa using List.find?_some hfind
    subst hk
    rfl

theorem get?_modify [DecidableEq κ] (m : SortedMap κ α) (k k' : κ) (f : α → α) :
    (m.modify k f).get? k' = (m.get? k').map fun v => if k' = k then f v else v := by
  rw [modify, get?_mapValues]
  congr 1
  funext v
  simp only [beq_iff_eq, Std.compare_eq_iff_eq]

theorem get?_erase_self (m : SortedMap κ α) (k : κ) : (m.erase k).get? k = none := by
  simp [get?, erase, List.find?_eq_none]

theorem get?_erase_of_ne (m : SortedMap κ α) {k k' : κ} (h : k ≠ k') :
    (m.erase k).get? k' = m.get? k' := by
  rw [get?, get?, erase, List.find?_filter]
  congr 2
  funext e
  by_cases he : e.1 = k'
  · subst he
    simp [Ne.symm h]
  · simp [he]

theorem agrees_self {r : α → α → Bool} (hr : ∀ v, r v v) (m : SortedMap κ α) : m.agrees r m := by
  have hall : ∀ l : List (κ × α),
      (l.zip l).all fun p => compare p.1.1 p.2.1 == .eq && r p.1.2 p.2.2 := by
    intro l
    induction l with
    | nil => rfl
    | cons e l ih => simp [List.zip_cons_cons, List.all_cons, hr, ih]
  rw [agrees, hall, beq_self_eq_true]
  rfl

theorem agrees_iff {β : Type} {r : α → α → Bool} {f : α → β} (hr : ∀ v w, r v w ↔ f v = f w)
    {m n : SortedMap κ α} :
    m.agrees r n ↔ (m.mapValues fun _ => f) = n.mapValues fun _ => f := by
  have hentries : m.agrees r n ↔
      List.Forall₂ (fun d e => (d.1, f d.2) = (e.1, f e.2)) m.entries n.entries := by
    simp [agrees, List.forall₂_iff_zip, hr]
  have hmaps : ((m.mapValues fun _ => f) = n.mapValues fun _ => f) ↔
      m.entries.map (fun e => (e.1, f e.2)) = n.entries.map fun e => (e.1, f e.2) :=
    ⟨congrArg entries, fun h => ext h⟩
  rw [hentries, hmaps, ← List.forall₂_eq_eq_eq, List.forall₂_map_left_iff,
    List.forall₂_map_right_iff]

end SortedMap

namespace SortedSet

variable {α : Type} [Ord α]

theorem mem_def {s : SortedSet α} {a : α} : a ∈ s ↔ a ∈ s.elements := Iff.rfl

@[simp] theorem mem_filter {s : SortedSet α} {p : α → Bool} {a : α} :
    a ∈ s.filter p ↔ a ∈ s ∧ p a := List.mem_filter

theorem ext_elements {s t : SortedSet α} (h : s.elements = t.elements) : s = t := by
  cases s
  cases t
  cases h
  rfl

theorem filter_eq_empty {s : SortedSet α} {p : α → Bool} (h : ∀ a ∈ s, ¬ p a) :
    s.filter p = .empty := ext_elements (List.filter_eq_nil_iff.mpr h)

theorem filter_eq_self {s : SortedSet α} {p : α → Bool} (h : ∀ a ∈ s, p a) : s.filter p = s :=
  ext_elements (List.filter_eq_self.mpr h)

variable [Std.LawfulEqOrd α]

theorem nodup_elements (s : SortedSet α) : s.elements.Nodup := by
  refine s.increasing.imp fun h heq => ?_
  rw [heq, Std.compare_self (α := α)] at h
  cases h

theorem ext_mem [Std.TransOrd α] {s t : SortedSet α} (h : ∀ a, a ∈ s ↔ a ∈ t) : s = t := by
  have hperm : s.elements.Perm t.elements :=
    (List.perm_ext_iff_of_nodup s.nodup_elements t.nodup_elements).mpr h
  refine ext_elements (hperm.eq_of_pairwise (fun a b _ _ hab hba => ?_) s.increasing t.increasing)
  have := Std.OrientedCmp.gt_of_lt hab
  rw [this] at hba
  cases hba

theorem contains_iff {s : SortedSet α} {a : α} : s.contains a ↔ a ∈ s := by
  simp [contains, mem_def]

theorem mem_erase {s : SortedSet α} {a b : α} : b ∈ s.erase a ↔ b ∈ s ∧ b ≠ a := by
  rw [erase, mem_filter]
  simp

variable [Std.TransOrd α]

theorem mem_foldl_insert {l : List α} {s : SortedSet α} {a : α} :
    a ∈ l.foldl insert s ↔ a ∈ s ∨ a ∈ l := by
  induction l generalizing s with
  | nil => simp
  | cons b l ih =>
    rw [List.foldl_cons, ih, mem_insert, List.mem_cons, or_comm (a := a = b), or_assoc]

theorem mem_insertMany {l : List α} {s : SortedSet α} {a : α} :
    a ∈ s.insertMany l ↔ a ∈ s ∨ a ∈ l := mem_foldl_insert

theorem mem_ofList {l : List α} {a : α} : a ∈ ofList l ↔ a ∈ l := by
  rw [ofList, mem_foldl_insert]
  simp [mem_def, empty]

end SortedSet
end Reconcile
