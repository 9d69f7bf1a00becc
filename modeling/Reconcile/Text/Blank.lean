/-!
Blank characters, and the two readings of text that ignore them: `trim` and `words`.
-/

namespace Reconcile
namespace Text

/-- The characters with the Unicode property White_Space. -/
def isBlank (c : Char) : Bool :=
  (0x09 ≤ c.val && c.val ≤ 0x0d) || c.val == 0x20 || c.val == 0x85 || c.val == 0xa0 ||
    c.val == 0x1680 || (0x2000 ≤ c.val && c.val ≤ 0x200a) || c.val == 0x2028 ||
    c.val == 0x2029 || c.val == 0x202f || c.val == 0x205f || c.val == 0x3000

def trimStart (s : List Char) : List Char := s.dropWhile isBlank

def trimEnd (s : List Char) : List Char := (s.reverse.dropWhile isBlank).reverse

def trim (s : List Char) : List Char := trimEnd (trimStart s)

theorem trim_eq_self {s : List Char} (head : ∀ c ∈ s.head?, isBlank c = false)
    (last : ∀ c ∈ s.getLast?, isBlank c = false) : trim s = s := by
  have hs : trimStart s = s := by
    cases s with
    | nil => rfl
    | cons c rest => simp [trimStart, head c (by simp)]
  have he : trimEnd s = s := by
    rcases List.eq_nil_or_concat s with rfl | ⟨l, c, rfl⟩
    · rfl
    · simp [trimEnd, last c (by simp)]
  rw [trim, hs, he]

/-- The leading word, which may be empty, and the words after it. -/
def leadingWord : List Char → List Char × List (List Char)
  | [] => ([], [])
  | c :: rest =>
    let (word, others) := leadingWord rest
    if isBlank c then ([], if word.isEmpty then others else word :: others)
    else (c :: word, others)

/-- The maximal runs of characters that are not blank. -/
def words (s : List Char) : List (List Char) :=
  let (word, others) := leadingWord s
  if word.isEmpty then others else word :: others

end Text
end Reconcile
