/-!
Cutting text at a separator, anywhere or only outside double quotes.  Main statements:
`eq_of_cutAt?` (nothing is lost) and `not_mem_of_cutAt?` (the cut is the first one).
-/

namespace Reconcile
namespace Text

def cutAt? (sep : Char) : List Char → Option (List Char × List Char)
  | [] => none
  | c :: rest =>
    if c = sep then some ([], rest) else (cutAt? sep rest).map fun p => (c :: p.1, p.2)

/-- The pieces between separators; text without one is a single piece. -/
def splitAll (sep : Char) : List Char → List (List Char)
  | [] => [[]]
  | c :: rest =>
    if c = sep then [] :: splitAll sep rest
    else
      match splitAll sep rest with
      | [] => [[c]]
      | piece :: pieces => (c :: piece) :: pieces

/-- Whether the text is inside double quotes after `c`, given whether it was before. -/
def quotedAfter (quoted : Bool) (c : Char) : Bool := if c = '"' then !quoted else quoted

/-- The text before and after the first `sep` that stands outside double quotes. -/
def cutUnquoted? (sep : Char) (quoted : Bool) : List Char → Option (List Char × List Char)
  | [] => none
  | c :: rest =>
    if c = sep && !quoted then some ([], rest)
    else (cutUnquoted? sep (quotedAfter quoted c) rest).map fun p => (c :: p.1, p.2)

def splitUnquoted (sep : Char) (quoted : Bool) : List Char → List (List Char)
  | [] => [[]]
  | c :: rest =>
    if c = sep && !quoted then [] :: splitUnquoted sep quoted rest
    else
      match splitUnquoted sep (quotedAfter quoted c) rest with
      | [] => [[c]]
      | piece :: pieces => (c :: piece) :: pieces

def joinWith (sep : List Char) : List (List Char) → List Char
  | [] => []
  | [piece] => piece
  | piece :: pieces => piece ++ sep ++ joinWith sep pieces

def occursIn (needle : List Char) : List Char → Bool
  | [] => needle.isEmpty
  | c :: rest => needle.isPrefixOf (c :: rest) || occursIn needle rest

theorem eq_of_cutAt? {sep : Char} {s a b : List Char} (h : cutAt? sep s = some (a, b)) :
    s = a ++ sep :: b := by
  induction s generalizing a with
  | nil => simp [cutAt?] at h
  | cons c rest ih =>
    rw [cutAt?] at h
    split at h
    next hc =>
      obtain ⟨rfl, rfl⟩ := by simpa using h
      simp [hc]
    · obtain ⟨p, hp, hab⟩ := Option.map_eq_some_iff.mp h
      obtain ⟨rfl, rfl⟩ := by simpa using hab
      simp [ih hp]

theorem not_mem_of_cutAt? {sep : Char} {s a b : List Char} (h : cutAt? sep s = some (a, b)) :
    sep ∉ a := by
  induction s generalizing a with
  | nil => simp [cutAt?] at h
  | cons c rest ih =>
    rw [cutAt?] at h
    split at h
    · obtain ⟨rfl, rfl⟩ := by simpa using h
      simp
    next hc =>
      obtain ⟨p, hp, hab⟩ := Option.map_eq_some_iff.mp h
      obtain ⟨rfl, rfl⟩ := by simpa using hab
      simpa [Ne.symm hc] using ih hp

theorem splitAll_ne_nil (sep : Char) (s : List Char) : splitAll sep s ≠ [] := by
  cases s with
  | nil => simp [splitAll]
  | cons c rest =>
    rw [splitAll]
    split
    · simp
    · split <;> simp

/-! ## Lengths -/

theorem length_of_cutAt? {sep : Char} {s a b : List Char} (h : cutAt? sep s = some (a, b)) :
    b.length < s.length := by
  have := congrArg List.length (eq_of_cutAt? h)
  simp only [List.length_append, List.length_cons] at this
  omega

theorem length_of_cutUnquoted? {sep : Char} {quoted : Bool} {s a b : List Char}
    (h : cutUnquoted? sep quoted s = some (a, b)) : b.length < s.length := by
  induction s generalizing quoted a with
  | nil => simp [cutUnquoted?] at h
  | cons c rest ih =>
    rw [cutUnquoted?] at h
    split at h
    · obtain ⟨rfl, rfl⟩ := by simpa using h
      simp
    · obtain ⟨p, hp, hab⟩ := Option.map_eq_some_iff.mp h
      obtain ⟨rfl, rfl⟩ := by simpa using hab
      exact Nat.lt_succ_of_lt (ih hp)

def totalLength : List (List Char) → Nat
  | [] => 0
  | piece :: rest => piece.length + totalLength rest

theorem totalLength_splitAll (sep : Char) (s : List Char) :
    totalLength (splitAll sep s) ≤ s.length := by
  induction s with
  | nil => simp [splitAll, totalLength]
  | cons c rest ih =>
    rw [splitAll]
    split
    · simp only [totalLength, List.length_nil, List.length_cons]
      omega
    · split
      · simp [totalLength]
      next piece pieces hp =>
        rw [hp] at ih
        simp only [totalLength, List.length_cons] at ih ⊢
        omega

theorem totalLength_filter (p : List Char → Bool) (pieces : List (List Char)) :
    totalLength (pieces.filter p) ≤ totalLength pieces := by
  induction pieces with
  | nil => simp
  | cons piece rest ih =>
    rw [List.filter_cons]
    split
    · simpa [totalLength] using ih
    · simp only [totalLength]
      omega

end Text
end Reconcile
