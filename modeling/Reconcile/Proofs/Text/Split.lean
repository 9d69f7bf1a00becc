import Mathlib.Data.List.Basic
import Reconcile.Text.Split
/-!
Splitting text undoes joining it.  A piece comes out as it went in if every separator in it is
quoted and it closes the quotations that it opens; the last piece may leave one open.  Main
statements: `splitUnquoted_intercalate` and its converse `exists_pieces`.
-/

namespace Reconcile
namespace Text

variable {sep other c : Char} {quoted : Bool} {a b s last : List Char} {first : List (List Char)}

/-- Whether a quotation is open at the end of the text, given whether one is at its start. -/
def endsQuoted (quoted : Bool) (s : List Char) : Bool := s.foldl quotedAfter quoted

/-- Every `sep` in the text stands inside double quotes, given whether its start does. -/
def isGuarded (sep : Char) : Bool → List Char → Bool
  | _, [] => true
  | quoted, c :: rest => (c != sep || quoted) && isGuarded sep (quotedAfter quoted c) rest

theorem quotedAfter_of_ne (h : c ≠ '"') : quotedAfter quoted c = quoted := if_neg h

theorem endsQuoted_append (quoted : Bool) (a b : List Char) :
    endsQuoted quoted (a ++ b) = endsQuoted (endsQuoted quoted a) b := List.foldl_append

theorem endsQuoted_of_not_mem (h : '"' ∉ s) : endsQuoted quoted s = quoted := by
  induction s with
  | nil => rfl
  | cons c s ih =>
    obtain ⟨hc, hs⟩ := not_or.mp (mt List.mem_cons.mpr h)
    show endsQuoted (quotedAfter quoted c) s = _
    rw [quotedAfter_of_ne (Ne.symm hc), ih hs]

theorem isGuarded_append (sep : Char) (quoted : Bool) (a b : List Char) :
    isGuarded sep quoted (a ++ b) =
      (isGuarded sep quoted a && isGuarded sep (endsQuoted quoted a) b) := by
  induction a generalizing quoted with
  | nil => rfl
  | cons c a ih =>
    rw [List.cons_append, isGuarded, isGuarded, ih, Bool.and_assoc]
    rfl

theorem isGuarded_cons_iff : isGuarded sep quoted (c :: s) ↔
    (c = sep && !quoted) = false ∧ isGuarded sep (quotedAfter quoted c) s := by
  have hhead : (c != sep || quoted) = !(c = sep && !quoted) := by
    by_cases hc : c = sep
    · simp [hc]
    · simp [hc]
  rw [isGuarded, hhead, Bool.and_eq_true, Bool.not_eq_true']

theorem isGuarded_of_not_mem (h : sep ∉ s) : isGuarded sep quoted s := by
  induction s generalizing quoted with
  | nil => rfl
  | cons c s ih =>
    obtain ⟨hc, hs⟩ := not_or.mp (mt List.mem_cons.mpr h)
    exact isGuarded_cons_iff.mpr ⟨by simp [Ne.symm hc], ih hs⟩

/-! ## Cutting once -/

theorem cutUnquoted?_append (h : isGuarded sep quoted a) (hend : endsQuoted quoted a = false) :
    cutUnquoted? sep quoted (a ++ sep :: b) = some (a, b) := by
  induction a generalizing quoted with
  | nil =>
    obtain rfl : quoted = false := hend
    simp [cutUnquoted?]
  | cons c a ih =>
    obtain ⟨hc, ha⟩ := isGuarded_cons_iff.mp h
    rw [List.cons_append, cutUnquoted?, hc, if_neg Bool.false_ne_true, ih ha hend]
    rfl

theorem cutUnquoted?_eq_some (h : cutUnquoted? sep quoted s = some (a, b)) :
    s = a ++ sep :: b ∧ isGuarded sep quoted a ∧ endsQuoted quoted a = false := by
  induction s generalizing quoted a with
  | nil => cases h
  | cons c s ih =>
    rw [cutUnquoted?] at h
    split at h
    next hc =>
      obtain ⟨rfl, rfl⟩ := Prod.mk.inj (Option.some.inj h)
      obtain ⟨rfl, hquoted⟩ : c = sep ∧ quoted = false := by simpa using hc
      exact ⟨rfl, rfl, hquoted⟩
    next hc =>
      obtain ⟨p, hp, hab⟩ := Option.map_eq_some_iff.mp h
      obtain ⟨rfl, rfl⟩ := Prod.mk.inj hab
      obtain ⟨rfl, hguarded, hend⟩ := ih hp
      exact ⟨rfl, isGuarded_cons_iff.mpr ⟨Bool.eq_false_iff.mpr hc, hguarded⟩, hend⟩

theorem cutUnquoted?_eq_none_iff : cutUnquoted? sep quoted s = none ↔ isGuarded sep quoted s := by
  induction s generalizing quoted with
  | nil => exact iff_of_true rfl rfl
  | cons c s ih =>
    rw [cutUnquoted?, isGuarded_cons_iff]
    split
    next hc => exact iff_of_false (Option.some_ne_none _) fun h => absurd hc (by simp [h.1])
    next hc => rw [Option.map_eq_none_iff, ih, and_iff_right (Bool.eq_false_iff.mpr hc)]

/-! ## Splitting is cutting over and over -/

theorem splitUnquoted_of_isGuarded (h : isGuarded sep quoted s) :
    splitUnquoted sep quoted s = [s] := by
  induction s generalizing quoted with
  | nil => rfl
  | cons c s ih =>
    obtain ⟨hc, hs⟩ := isGuarded_cons_iff.mp h
    rw [splitUnquoted, hc, if_neg Bool.false_ne_true, ih hs]

theorem splitUnquoted_append (h : isGuarded sep quoted a) (hend : endsQuoted quoted a = false) :
    splitUnquoted sep quoted (a ++ sep :: b) = a :: splitUnquoted sep false b := by
  induction a generalizing quoted with
  | nil =>
    obtain rfl : quoted = false := hend
    simp [splitUnquoted]
  | cons c a ih =>
    obtain ⟨hc, ha⟩ := isGuarded_cons_iff.mp h
    rw [List.cons_append, splitUnquoted, hc, if_neg Bool.false_ne_true, ih ha hend]

theorem intercalate_cons {pieces : List (List Char)} (h : pieces ≠ []) :
    [sep].intercalate (a :: pieces) = a ++ sep :: [sep].intercalate pieces := by
  cases pieces with
  | nil => exact absurd rfl h
  | cons p pieces => simp [List.intercalate_cons_cons]

theorem intercalate_cons_concat : [sep].intercalate (a :: first ++ [last]) =
    a ++ sep :: [sep].intercalate (first ++ [last]) :=
  intercalate_cons (List.append_ne_nil_of_right_ne_nil _ (List.cons_ne_nil _ _))

theorem splitUnquoted_intercalate (hfirst : ∀ p ∈ first, isGuarded sep false p)
    (hclosed : ∀ p ∈ first, endsQuoted false p = false) (hlast : isGuarded sep false last) :
    splitUnquoted sep false ([sep].intercalate (first ++ [last])) = first ++ [last] := by
  induction first with
  | nil =>
    rw [List.nil_append, List.intercalate_singleton]
    exact splitUnquoted_of_isGuarded hlast
  | cons p first ih =>
    obtain ⟨hp, hfirst⟩ := List.forall_mem_cons.mp hfirst
    obtain ⟨hend, hclosed⟩ := List.forall_mem_cons.mp hclosed
    rw [intercalate_cons_concat, splitUnquoted_append hp hend, ih hfirst hclosed]
    rfl

/-- Text that is split is made of pieces, of which only the last may leave a quotation open. -/
theorem exists_pieces (sep : Char) (s : List Char) :
    ∃ first last, splitUnquoted sep false s = first ++ [last] ∧
      s = [sep].intercalate (first ++ [last]) ∧ (∀ p ∈ first, isGuarded sep false p) ∧
      (∀ p ∈ first, endsQuoted false p = false) ∧ isGuarded sep false last := by
  induction hn : s.length using Nat.strongRecOn generalizing s with
  | ind n ih =>
    cases hcut : cutUnquoted? sep false s with
    | none =>
      have hguarded := cutUnquoted?_eq_none_iff.mp hcut
      exact ⟨[], s, splitUnquoted_of_isGuarded hguarded, List.intercalate_singleton.symm,
        List.forall_mem_nil _, List.forall_mem_nil _, hguarded⟩
    | some p =>
      obtain ⟨a, b⟩ := p
      have hlength := length_of_cutUnquoted? hcut
      obtain ⟨rfl, hguarded, hend⟩ := cutUnquoted?_eq_some hcut
      obtain ⟨first, last, hsplit, hb, hfirst, hclosed, hlast⟩ := ih b.length (hn ▸ hlength) b rfl
      refine ⟨a :: first, last, ?_, ?_, List.forall_mem_cons.mpr ⟨hguarded, hfirst⟩,
        List.forall_mem_cons.mpr ⟨hend, hclosed⟩, hlast⟩
      · rw [splitUnquoted_append hguarded hend, hsplit]
        rfl
      · rw [intercalate_cons_concat, ← hb]

/-! ## What pieces have in common with the text that they make -/

section

variable (hsep : sep ≠ '"') (hclosed : ∀ p ∈ first, endsQuoted false p = false)
include hsep hclosed

theorem endsQuoted_intercalate :
    endsQuoted false ([sep].intercalate (first ++ [last])) = endsQuoted false last := by
  induction first with
  | nil => rw [List.nil_append, List.intercalate_singleton]
  | cons p first ih =>
    obtain ⟨hend, hclosed⟩ := List.forall_mem_cons.mp hclosed
    rw [intercalate_cons_concat, endsQuoted_append, hend]
    show endsQuoted (quotedAfter false sep) _ = _
    rw [quotedAfter_of_ne hsep, ih hclosed]

theorem isGuarded_intercalate_iff (hother : sep ≠ other) :
    isGuarded other false ([sep].intercalate (first ++ [last])) ↔
      (∀ p ∈ first, isGuarded other false p) ∧ isGuarded other false last := by
  induction first with
  | nil => simp
  | cons p first ih =>
    obtain ⟨hend, hclosed⟩ := List.forall_mem_cons.mp hclosed
    have hhead : (sep = other && !false) = false := by simp [hother]
    rw [intercalate_cons_concat, isGuarded_append, hend, Bool.and_eq_true, isGuarded_cons_iff,
      and_iff_right hhead, quotedAfter_of_ne hsep, ih hclosed, List.forall_mem_cons, and_assoc]

end

/-! ## Splitting at every separator -/

theorem splitAll_append (h : sep ∉ a) :
    splitAll sep (a ++ sep :: b) = a :: splitAll sep b := by
  induction a with
  | nil => simp [splitAll]
  | cons c a ih =>
    obtain ⟨hc, ha⟩ := not_or.mp (mt List.mem_cons.mpr h)
    rw [List.cons_append, splitAll, if_neg (Ne.symm hc), ih ha]

theorem splitAll_of_not_mem (h : sep ∉ s) : splitAll sep s = [s] := by
  induction s with
  | nil => rfl
  | cons c s ih =>
    obtain ⟨hc, hs⟩ := not_or.mp (mt List.mem_cons.mpr h)
    rw [splitAll, if_neg (Ne.symm hc), ih hs]

theorem splitAll_intercalate {pieces : List (List Char)} (hne : pieces ≠ [])
    (h : ∀ p ∈ pieces, sep ∉ p) : splitAll sep ([sep].intercalate pieces) = pieces := by
  induction pieces with
  | nil => exact absurd rfl hne
  | cons p pieces ih =>
    obtain ⟨hp, hpieces⟩ := List.forall_mem_cons.mp h
    cases pieces with
    | nil =>
      rw [List.intercalate_singleton]
      exact splitAll_of_not_mem hp
    | cons q pieces =>
      have hne := List.cons_ne_nil q pieces
      rw [intercalate_cons hne, splitAll_append hp, ih hne hpieces]

theorem not_mem_of_mem_splitAll {p : List Char} (h : p ∈ splitAll sep s) : sep ∉ p := by
  induction s generalizing p with
  | nil =>
    rw [List.mem_singleton.mp h]
    exact List.not_mem_nil
  | cons c s ih =>
    rw [splitAll] at h
    split at h
    · rcases List.mem_cons.mp h with rfl | h
      · exact List.not_mem_nil
      · exact ih h
    next hc =>
      cases hsplit : splitAll sep s with
      | nil => exact absurd hsplit (splitAll_ne_nil sep s)
      | cons q pieces =>
        rw [hsplit] at h ih
        rcases List.mem_cons.mp h with rfl | h
        · have hq := ih List.mem_cons_self
          exact fun hmem => (List.mem_cons.mp hmem).elim (Ne.symm hc) hq
        · exact ih (List.mem_cons_of_mem _ h)

end Text
end Reconcile
