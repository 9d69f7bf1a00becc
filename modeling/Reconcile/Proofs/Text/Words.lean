import Reconcile.Proofs.Text.Split
import Reconcile.Text.Blank
/-!
The words of a text.  Main statement: `words_intercalate`, words with single blanks between them
are read as these words.
-/

namespace Reconcile
namespace Text

variable {s word : List Char} {ws : List (List Char)}

def IsWord (s : List Char) : Prop := s ≠ [] ∧ ∀ c ∈ s, isBlank c = false

theorem leadingWord_spec (s : List Char) :
    (∀ c ∈ (leadingWord s).1, isBlank c = false) ∧ ∀ w ∈ (leadingWord s).2, IsWord w := by
  induction s with
  | nil => exact ⟨fun _ h => (nomatch h), fun _ h => nomatch h⟩
  | cons c s ih =>
    obtain ⟨hword, hothers⟩ := ih
    rw [leadingWord]
    dsimp only
    by_cases hc : isBlank c
    · rw [if_pos hc]
      refine ⟨fun _ h => (nomatch h), ?_⟩
      dsimp only
      split
      · exact hothers
      next hne =>
        refine List.forall_mem_cons.mpr ⟨⟨?_, hword⟩, hothers⟩
        exact fun h => hne (List.isEmpty_iff.mpr h)
    · rw [if_neg hc]
      exact ⟨List.forall_mem_cons.mpr ⟨Bool.eq_false_iff.mpr hc, hword⟩, hothers⟩

theorem isWord_of_mem_words (h : word ∈ words s) : IsWord word := by
  obtain ⟨hword, hothers⟩ := leadingWord_spec s
  rw [words] at h
  dsimp only at h
  split at h
  · exact hothers _ h
  next hne =>
    rcases List.mem_cons.mp h with rfl | h
    · exact ⟨fun h => hne (List.isEmpty_iff.mpr h), hword⟩
    · exact hothers _ h

theorem leadingWord_of_not_isBlank (h : ∀ c ∈ s, isBlank c = false) : leadingWord s = (s, []) := by
  induction s with
  | nil => rfl
  | cons c s ih =>
    obtain ⟨hc, hs⟩ := List.forall_mem_cons.mp h
    rw [leadingWord, ih hs]
    simp [hc]

theorem leadingWord_append (h : ∀ c ∈ word, isBlank c = false) (s : List Char) :
    leadingWord (word ++ ' ' :: s) = (word, words s) := by
  induction word with
  | nil => rfl
  | cons c word ih =>
    obtain ⟨hc, hword⟩ := List.forall_mem_cons.mp h
    rw [List.cons_append, leadingWord, ih hword]
    simp [hc]

theorem words_intercalate (h : ∀ w ∈ ws, IsWord w) : words ([' '].intercalate ws) = ws := by
  induction ws with
  | nil => rfl
  | cons w ws ih =>
    obtain ⟨⟨hne, hw⟩, hws⟩ := List.forall_mem_cons.mp h
    have hempty : w.isEmpty = false := List.isEmpty_eq_false_iff.mpr hne
    cases ws with
    | nil =>
      rw [List.intercalate_singleton, words, leadingWord_of_not_isBlank hw]
      simp [hempty]
    | cons w' ws =>
      rw [intercalate_cons (List.cons_ne_nil w' ws), words, leadingWord_append hw, ih hws]
      simp [hempty]

end Text
end Reconcile
