import Mathlib.Data.List.Forall2
import Reconcile.Proofs.Text.Blank
/-!
What names denote.  A plain name denotes its upper-case form, text in double quotes what they hold,
a doubled quote being one, and any other text itself.  Main statement: `normalize_keeps_name`,
canonical text stands for the name that the raw text denotes, so that no two names are confused, and
a plain name has one canonical text in any case and with any blanks around it.
-/

namespace Reconcile
namespace Identifier

open Text

variable {c : Char} {s t raw inner front back : List Char}

/-! ## The name that text denotes -/

def inner? : List Char → Option (List Char)
  | '"' :: rest => if rest.getLast? = some '"' then some rest.dropLast else none
  | _ => none

/-- The text with doubled quotes made one, from left to right.  A quote without another one next to
it is kept. -/
def undoubled : List Char → List Char
  | '"' :: '"' :: rest => '"' :: undoubled rest
  | c :: rest => c :: undoubled rest
  | [] => []

def nameOf (s : List Char) : List Char :=
  match inner? s with
  | some inner => undoubled inner
  | none => s

def denoted (raw : List Char) : List Char :=
  let s := trim raw
  if isPlain s then s.map upper
  else
    match inner? s with
    | some inner => undoubled inner
    | none => s

/-! ## Quoted text -/

theorem inner?_eq_some_iff : inner? s = some inner ↔ s = '"' :: (inner ++ ['"']) := by
  constructor
  · fun_cases inner? s with
    | case1 rest hlast =>
      intro h
      obtain ⟨front, rfl⟩ := List.getLast?_eq_some_iff.mp hlast
      rw [← Option.some.inj h, List.dropLast_concat]
    | case2 => exact nofun
    | case3 => exact nofun
  · rintro rfl
    rw [inner?, List.getLast?_concat, if_pos rfl, List.dropLast_concat]

theorem inner?_eq_none_of_not_isQuoted (h : ¬ isQuoted s) : inner? s = none :=
  Option.eq_none_iff_forall_ne_some.mpr fun inner hinner =>
    h (isQuoted_iff.mpr ⟨inner, inner?_eq_some_iff.mp hinner⟩)

theorem undoubled_cons_of_ne (h : c ≠ '"') (s : List Char) :
    undoubled (c :: s) = c :: undoubled s := by
  rw [undoubled]
  exact fun _ hc _ => h hc

theorem undoubled_doubleQuotes (s : List Char) : undoubled (doubleQuotes s) = s := by
  induction s with
  | nil => rfl
  | cons c s ih =>
    rw [doubleQuotes, List.flatMap_cons, ← doubleQuotes]
    by_cases hc : c = '"'
    · subst hc
      show '"' :: undoubled (doubleQuotes s) = '"' :: s
      rw [ih]
    · rw [if_neg hc, List.singleton_append, undoubled_cons_of_ne hc, ih]

theorem nameOf_quote (s : List Char) : nameOf (quote s) = s := by
  have hinner : inner? (quote s) = some (doubleQuotes s) := inner?_eq_some_iff.mpr rfl
  rw [nameOf, hinner]
  exact undoubled_doubleQuotes s

theorem not_isQuoted_of_isPlain (h : isPlain s) : ¬ isQuoted s := by
  rw [isQuoted_of_isPlain h]
  exact Bool.false_ne_true

theorem nameOf_of_isPlain (h : isPlain s) : nameOf s = s := by
  rw [nameOf, inner?_eq_none_of_not_isQuoted (not_isQuoted_of_isPlain h)]

/-- The three ways to denote a name and the three ways to write it agree. -/
theorem nameOf_canonicalForm (raw : List Char) : nameOf (canonicalForm raw) = denoted raw := by
  rw [canonicalForm, denoted]
  split
  next hquoted =>
    rw [if_neg fun hplain => not_isQuoted_of_isPlain hplain hquoted, nameOf]
  next hquoted =>
    split
    next hplain => rw [nameOf_of_isPlain (isPlain_map_upper hplain)]
    · rw [nameOf_quote, inner?_eq_none_of_not_isQuoted hquoted]

/-! ## Case and blanks -/

/-- The text with each letter in one case or the other. -/
def IsRecased (s t : List Char) : Prop := List.Forall₂ (fun c d => d = upper c ∨ d = lower c) s t

theorem IsRecased.map_upper_eq (h : IsRecased s t) : t.map upper = s.map upper := by
  induction h with
  | nil => rfl
  | cons hd _ ih => rcases hd with rfl | rfl <;> simp [ih]

theorem isStart_of_isStart_upper (h : isStart (upper c)) : isStart c := by
  by_cases hl : isLower c
  · simp [isStart, isLetter, hl]
  · rwa [upper, if_neg hl] at h

theorem isPart_of_isPart_upper (h : isPart (upper c)) : isPart c := by
  by_cases hl : isLower c
  · simp [isPart, isLetter, hl]
  · rwa [upper, if_neg hl] at h

theorem isPlain_of_isPlain_map_upper (h : isPlain (s.map upper)) : isPlain s := by
  cases s with
  | nil => exact h
  | cons c rest =>
    simp only [isPlain, List.map_cons, Bool.and_eq_true, List.all_eq_true, List.forall_mem_map]
      at h ⊢
    exact ⟨isStart_of_isStart_upper h.1, fun d hd => isPart_of_isPart_upper (h.2 d hd)⟩

theorem canonicalForm_recased (hplain : isPlain (trim s)) (h : IsRecased s t) :
    canonicalForm t = canonicalForm s := by
  have htrim : (trim t).map upper = (trim s).map upper := by
    rw [← trim_map_upper, h.map_upper_eq, trim_map_upper]
  have hplain' : isPlain (trim t) :=
    isPlain_of_isPlain_map_upper (htrim ▸ isPlain_map_upper hplain)
  rw [canonicalForm_of_isPlain_trim hplain', canonicalForm_of_isPlain_trim hplain, htrim]

theorem canonicalForm_append (hfront : ∀ c ∈ front, isBlank c) (hback : ∀ c ∈ back, isBlank c)
    (s : List Char) : canonicalForm (front ++ s ++ back) = canonicalForm s := by
  rw [canonicalForm, trim_append hfront hback, canonicalForm]

/-! ## Canonical text -/

theorem toList_normalize (raw : String) :
    (normalize raw).toList = canonicalForm raw.toList := toList_ofText raw

theorem nameOf_normalize (raw : String) : nameOf (normalize raw).toList = denoted raw.toList := by
  rw [toList_normalize, nameOf_canonicalForm]

/-- Canonical text is its own canonical text and stands for the name that the raw text denotes, so
that texts with the same canonical text denote the same name.  The canonical text of a plain name
depends neither on case nor on the blanks around it. -/
theorem normalize_keeps_name (raw : String) :
    normalize (normalize raw) = normalize raw ∧
    nameOf (normalize raw).toList = denoted raw.toList ∧
    (∀ other, normalize other = normalize raw → denoted other.toList = denoted raw.toList) ∧
    (isPlain (trim raw.toList) → ∀ recased front back : String,
      IsRecased raw.toList recased.toList → (∀ c ∈ front.toList, isBlank c) →
      (∀ c ∈ back.toList, isBlank c) → normalize (front ++ recased ++ back) = normalize raw) := by
  refine ⟨normalize_normalize raw, nameOf_normalize raw, fun other h => ?_,
    fun hplain recased front back hrecased hfront hback => String.toList_injective ?_⟩
  · rw [← nameOf_normalize, h, nameOf_normalize]
  · rw [toList_normalize, toList_normalize, String.toList_append, String.toList_append,
      canonicalForm_append hfront hback, canonicalForm_recased hplain hrecased]

theorem normalize_keeps_name_warehouse :
    (normalize "WH$1" = normalize " wh$1" ∧
      denoted "WH$1".toList = denoted " wh$1".toList) ∧
    isPlain (trim " wh$1".toList) ∧ IsRecased " wh$1".toList " Wh$1".toList ∧
    (∀ c ∈ "\t".toList, isBlank c) ∧ (∀ c ∈ "\u00a0".toList, isBlank c) ∧
    normalize ("\t" ++ " Wh$1" ++ "\u00a0") = normalize " wh$1" := by
  have hstored : normalize "WH$1" = normalize " wh$1" := by decide
  have hplain : isPlain (trim " wh$1".toList) := by decide
  have hrecased : IsRecased " wh$1".toList " Wh$1".toList :=
    .cons (.inl rfl) <| .cons (.inl rfl) <| .cons (.inr rfl) <| .cons (.inl rfl) <|
      .cons (.inl rfl) .nil
  have hfront : ∀ c ∈ "\t".toList, isBlank c := List.all_eq_true.mp (by decide)
  have hback : ∀ c ∈ "\u00a0".toList, isBlank c := List.all_eq_true.mp (by decide)
  obtain ⟨-, -, hsame, hpadded⟩ := normalize_keeps_name " wh$1"
  exact ⟨⟨hstored, hsame _ hstored⟩, hplain, hrecased, hfront, hback,
    hpadded hplain _ _ _ hrecased hfront hback⟩

/-- A quote on its own between quotes: the text is canonical as it is, and is not the only canonical
text of its name. -/
example : nameOf (canonicalForm "\"a\"b\"".toList) = "a\"b".toList ∧
    nameOf (canonicalForm "a\"b".toList) = "a\"b".toList ∧
    canonicalForm "\"a\"b\"".toList ≠ canonicalForm "a\"b".toList := by decide

end Identifier
end Reconcile
