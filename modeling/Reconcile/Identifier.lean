import Reconcile.Text.Ascii
import Reconcile.Text.Blank
/-!
Object names in the form in which the warehouse stores them.  A plain name is case-insensitive and
stored in upper case; every other name is written in double quotes and keeps its case.  Main
statement: `canonicalForm_canonicalForm`, which lets an `Identifier` be a canonical text.
-/

namespace Reconcile

namespace Identifier

open Text

def isStart (c : Char) : Bool := isLetter c || c == '_'

def isPart (c : Char) : Bool := isLetter c || isDigit c || c == '_' || c == '$'

def isPlain : List Char → Bool
  | [] => false
  | c :: rest => isStart c && rest.all isPart

/-- Text that starts and ends with a double quote, two different ones. -/
def isQuoted (s : List Char) : Bool :=
  2 ≤ s.length && s.head? == some '"' && s.getLast? == some '"'

def doubleQuotes (s : List Char) : List Char := s.flatMap fun c => if c = '"' then [c, c] else [c]

def quote (s : List Char) : List Char := '"' :: (doubleQuotes s ++ ['"'])

/-- The canonical form of a raw name: blanks at the ends are dropped, quoted text stays, a plain
name is put in upper case and any other text is quoted. -/
def canonicalForm (raw : List Char) : List Char :=
  let s := trim raw
  if isQuoted s then s else if isPlain s then s.map upper else quote s

/-! ## The canonical form is canonical -/

theorem isQuoted_iff {s : List Char} : isQuoted s ↔ ∃ inner, s = '"' :: (inner ++ ['"']) := by
  constructor
  · intro h
    simp only [isQuoted, Bool.and_eq_true, decide_eq_true_eq, beq_iff_eq] at h
    obtain ⟨⟨hlength, hhead⟩, hlast⟩ := h
    obtain ⟨rest, rfl⟩ := List.head?_eq_some_iff.mp hhead
    obtain ⟨front, hfront⟩ := List.getLast?_eq_some_iff.mp hlast
    cases front with
    | nil =>
      rw [hfront] at hlength
      exact absurd hlength (by decide)
    | cons c inner =>
      obtain ⟨rfl, rfl⟩ := List.cons.inj hfront
      exact ⟨inner, rfl⟩
  · rintro ⟨inner, rfl⟩
    simp [isQuoted, List.getLast?_cons]

theorem isQuoted_quote (s : List Char) : isQuoted (quote s) :=
  isQuoted_iff.mpr ⟨doubleQuotes s, rfl⟩

theorem trim_of_isQuoted {s : List Char} (h : isQuoted s) : trim s = s := by
  obtain ⟨inner, rfl⟩ := isQuoted_iff.mp h
  refine trim_eq_self (fun c hc => ?_) (fun c hc => ?_)
  · obtain rfl := by simpa using hc
    rfl
  · obtain rfl := by simpa [List.getLast?_cons] using hc
    rfl

theorem isPart_of_isStart {c : Char} (h : isStart c) : isPart c := by
  simp only [isStart, isPart, Bool.or_eq_true] at h ⊢
  rcases h with h | h
  · exact .inl (.inl (.inl h))
  · exact .inl (.inr h)

theorem not_isBlank_of_isPart {c : Char} (h : isPart c) : isBlank c = false := by
  refine Bool.eq_false_iff.mpr fun hb => ?_
  simp only [isPart, isLetter, isDigit, Bool.or_eq_true, isLower_iff, isUpper_iff, beq_iff_eq,
    Bool.and_eq_true, decide_eq_true_eq, Char.le_def, UInt32.le_iff_toNat_le] at h
  simp only [isBlank, Bool.or_eq_true, Bool.and_eq_true, decide_eq_true_eq, beq_iff_eq,
    UInt32.le_iff_toNat_le, ← UInt32.toNat_inj] at hb
  have hn : c.val.toNat = c.toNat := rfl
  rcases h with ((h | h) | rfl) | rfl
  · simp [hn] at hb h
    omega
  · simp [hn] at hb h
    omega
  · revert hb; decide
  · revert hb; decide

theorem all_isPart_of_isPlain {s : List Char} (h : isPlain s) : ∀ c ∈ s, isPart c := by
  cases s with
  | nil => simp [isPlain] at h
  | cons c rest =>
    simp only [isPlain, Bool.and_eq_true, List.all_eq_true] at h
    intro d hd
    rcases List.mem_cons.mp hd with rfl | hd
    · exact isPart_of_isStart h.1
    · exact h.2 d hd

theorem trim_of_isPlain {s : List Char} (h : isPlain s) : trim s = s := by
  refine trim_eq_self (fun c hc => ?_) (fun c hc => ?_)
  · exact not_isBlank_of_isPart (all_isPart_of_isPlain h c (List.mem_of_mem_head? hc))
  · exact not_isBlank_of_isPart (all_isPart_of_isPlain h c (List.mem_of_mem_getLast? hc))

theorem isLetter_upper {c : Char} (h : isLetter c) : isLetter (upper c) := by
  by_cases hl : isLower c
  · simp [isLetter, isUpper_upper hl]
  · simpa [upper, hl] using h

theorem upper_of_not_isLetter {c : Char} (h : isLetter c = false) : upper c = c := by
  have : isLower c = false := by
    simp only [isLetter, Bool.or_eq_false_iff] at h
    exact h.2
  simp [upper, this]

theorem isStart_upper {c : Char} (h : isStart c) : isStart (upper c) := by
  by_cases hl : isLetter c
  · simp [isStart, isLetter_upper hl]
  · rwa [upper_of_not_isLetter (by simpa using hl)]

theorem isPart_upper {c : Char} (h : isPart c) : isPart (upper c) := by
  by_cases hl : isLetter c
  · simp [isPart, isLetter_upper hl]
  · rwa [upper_of_not_isLetter (by simpa using hl)]

theorem isPlain_map_upper {s : List Char} (h : isPlain s) : isPlain (s.map upper) := by
  cases s with
  | nil => simp [isPlain] at h
  | cons c rest =>
    simp only [isPlain, Bool.and_eq_true, List.all_eq_true, List.map_cons, List.mem_map] at h ⊢
    refine ⟨isStart_upper h.1, ?_⟩
    rintro _ ⟨d, hd, rfl⟩
    exact isPart_upper (h.2 d hd)

theorem isQuoted_of_isPlain {s : List Char} (h : isPlain s) : isQuoted s = false := by
  refine Bool.eq_false_iff.mpr fun hquoted => ?_
  obtain ⟨inner, rfl⟩ := isQuoted_iff.mp hquoted
  simp [isPlain, isStart, isLetter, isUpper, isLower] at h

theorem canonicalForm_of_isQuoted {s : List Char} (h : isQuoted s) : canonicalForm s = s := by
  simp [canonicalForm, trim_of_isQuoted h, h]

theorem canonicalForm_of_isPlain_trim {raw : List Char} (h : isPlain (trim raw)) :
    canonicalForm raw = (trim raw).map upper := by
  simp [canonicalForm, isQuoted_of_isPlain h, h]

theorem canonicalForm_of_isPlain {s : List Char} (h : isPlain s) :
    canonicalForm s = s.map upper := by
  have htrim : trim s = s := trim_of_isPlain h
  rw [canonicalForm_of_isPlain_trim (by rwa [htrim]), htrim]

theorem canonicalForm_canonicalForm (raw : List Char) :
    canonicalForm (canonicalForm raw) = canonicalForm raw := by
  by_cases hq : isQuoted (trim raw)
  · simp [canonicalForm, hq, trim_of_isQuoted hq]
  · by_cases hp : isPlain (trim raw)
    · rw [canonicalForm_of_isPlain_trim hp, canonicalForm_of_isPlain (isPlain_map_upper hp)]
      simp
    · have : canonicalForm raw = quote (trim raw) := by simp [canonicalForm, hq, hp]
      rw [this, canonicalForm_of_isQuoted (isQuoted_quote _)]

end Identifier

/-- The name of an object, in canonical form. -/
structure Identifier where
  text : String
  canonical : Identifier.canonicalForm text.toList = text.toList
deriving DecidableEq

namespace Identifier

def ofText (raw : String) : Identifier where
  text := String.ofList (canonicalForm raw.toList)
  canonical := by simpa using canonicalForm_canonicalForm raw.toList

theorem toList_ofText (raw : String) : (ofText raw).text.toList = canonicalForm raw.toList :=
  String.toList_ofList

def normalize (raw : String) : String := (ofText raw).text

@[ext] theorem ext {a b : Identifier} (h : a.text = b.text) : a = b := by
  cases a; cases b; cases h; rfl

@[simp] theorem ofText_text (a : Identifier) : ofText a.text = a := by
  ext1
  rw [← String.toList_inj, toList_ofText, a.canonical]

theorem normalize_normalize (s : String) : normalize (normalize s) = normalize s := by
  rw [normalize, normalize, ofText_text]

instance : Inhabited Identifier := ⟨ofText ""⟩

instance : Repr Identifier := ⟨fun a n => reprPrec a.text n⟩

instance : Ord Identifier := ⟨compareOn text⟩

instance : Std.TransOrd Identifier := inferInstanceAs (Std.TransCmp (compareOn text))

instance : Std.LawfulEqOrd Identifier where
  compare_self := Std.compare_self (α := String)
  eq_of_compare h := ext (Std.compare_eq_iff_eq.mp h)

end Identifier
end Reconcile
