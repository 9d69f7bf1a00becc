import Mathlib.Data.List.TakeWhile
import Reconcile.Identifier
/-!
Blanks around a text.  Main statements: `exists_trim`, nothing else is taken away with them,
`trim_append`, more of them make no difference, and `trim_map_upper`, case makes none to them.
-/

namespace Reconcile
namespace Text

variable {front back : List Char}

theorem exists_trim (s : List Char) :
    ∃ a b, s = a ++ (trim s ++ b) ∧ (∀ c ∈ a, isBlank c) ∧ ∀ c ∈ b, isBlank c := by
  refine ⟨s.takeWhile isBlank, ((trimStart s).reverse.takeWhile isBlank).reverse, ?_,
    fun c hc => List.mem_takeWhile_imp hc,
    fun c hc => List.mem_takeWhile_imp (List.mem_reverse.mp hc)⟩
  rw [trim, trimEnd, ← List.reverse_append, List.takeWhile_append_dropWhile, List.reverse_reverse,
    trimStart, List.takeWhile_append_dropWhile]

theorem trimEnd_append (hback : ∀ c ∈ back, isBlank c) (s : List Char) :
    trimEnd (s ++ back) = trimEnd s := by
  rw [trimEnd, trimEnd, List.reverse_append,
    List.dropWhile_append_of_pos fun c hc => hback c (List.mem_reverse.mp hc)]

theorem trim_append (hfront : ∀ c ∈ front, isBlank c) (hback : ∀ c ∈ back, isBlank c)
    (s : List Char) : trim (front ++ s ++ back) = trim s := by
  rw [List.append_assoc, trim, trim, trimStart, trimStart, List.dropWhile_append_of_pos hfront,
    List.dropWhile_append]
  split
  next hempty =>
    -- Text of blanks only goes away from the front, and `back` with it.
    rw [List.isEmpty_iff.mp hempty, List.dropWhile_eq_nil_iff.mpr hback]
  · exact trimEnd_append hback _

theorem isBlank_upper (c : Char) : isBlank (upper c) = isBlank c := by
  by_cases h : isLower c
  · have hletter : isLetter c := by
      rw [isLetter, h, Bool.or_true]
    have hpart {d : Char} (hd : isLetter d) : isBlank d = false :=
      Identifier.not_isBlank_of_isPart (by simp [Identifier.isPart, hd])
    rw [hpart hletter, hpart (Identifier.isLetter_upper hletter)]
  · rw [upper, if_neg h]

theorem dropWhile_map_upper (s : List Char) :
    (s.map upper).dropWhile isBlank = (s.dropWhile isBlank).map upper := by
  have hcomp : isBlank ∘ upper = isBlank := funext isBlank_upper
  rw [List.dropWhile_map, hcomp]

theorem trim_map_upper (s : List Char) : trim (s.map upper) = (trim s).map upper := by
  rw [trim, trim, trimStart, dropWhile_map_upper, trimEnd, ← List.map_reverse, dropWhile_map_upper,
    ← List.map_reverse]
  rfl

end Text
end Reconcile
