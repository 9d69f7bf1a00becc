import Reconcile.Proofs.Json.Number
import Reconcile.Sql.Literal
/-!
No property value can break out of its literal.  Text is read by the lexical rules of literals: a
string between double dollar signs ends at the next two, a quoted one at the first quote that is
not doubled, a word runs as far as it can, and a parenthesis opens a list.  Main statement:
`spelled?_value`, the literal of a value is read back whole, with the texts that the value holds.
-/

namespace Reconcile
namespace Sql

/-! ## Lexical rules -/

/-- What a literal says. -/
inductive Spelled where
  | word (chars : List Char)
  | text (chars : List Char)
  | list (items : List Spelled)
deriving Repr

def isWordChar (c : Char) : Bool :=
  Text.isLetter c || Text.isDigit c || c == '_' || c == '-' || c == '+' || c == '.'

def skipBlanks (s : List Char) : List Char := s.dropWhile (· == ' ')

/-- The text up to the next two dollar signs, and what follows them. -/
def dollarText? : List Char → Option (List Char × List Char)
  | '$' :: '$' :: rest => some ([], rest)
  | c :: s => (dollarText? s).map fun r => (c :: r.1, r.2)
  | [] => none

/-- The text up to the first quote that is not doubled, and what follows that quote. -/
def quotedText? : List Char → Option (List Char × List Char)
  | '\'' :: '\'' :: s => (quotedText? s).map fun r => ('\'' :: r.1, r.2)
  | '\'' :: rest => some ([], rest)
  | c :: s => (quotedText? s).map fun r => (c :: r.1, r.2)
  | [] => none

mutual

def spelled? (s : List Char) : Option (Spelled × List Char) :=
  match s with
  | '$' :: '$' :: body => (dollarText? body).map fun r => (.text r.1, r.2)
  | '\'' :: body => (quotedText? body).map fun r => (.text r.1, r.2)
  | '(' :: body =>
    match skipBlanks body with
    | ')' :: rest => some (.list [], rest)
    | _ => (items? body).map fun r => (.list r.1, r.2)
  | _ =>
    let word := s.takeWhile isWordChar
    if word.isEmpty then none else some (.word word, s.dropWhile isWordChar)
termination_by (s.length, 0)
decreasing_by
  exact .left _ _ (by simp)

/-- The literals, at least one, up to the parenthesis that closes their list. -/
def items? (s : List Char) : Option (List Spelled × List Char) :=
  match spelled? (skipBlanks s) with
  | none => none
  | some (l, more) =>
    match skipBlanks more with
    | ')' :: rest => some ([l], rest)
    | ',' :: more =>
      -- No literal is empty, so there is always less to read.
      if more.length < s.length then (items? more).map fun r => (l :: r.1, r.2) else none
    | _ => none
termination_by (s.length, 1)
decreasing_by
  · have hle : (skipBlanks s).length ≤ s.length := List.length_dropWhile_le _ _
    omega
  · exact .left _ _ ‹_›

end

def MayFollow (rest : List Char) : Prop := ∀ c ∈ rest.head?, c = ' ' ∨ c = ',' ∨ c = ')'

variable {key : String} {s w rest : List Char} {c : Char}

/-! ## Texts -/

/-- Two dollar signs neither occur in a safe text nor come about where it ends. -/
theorem isDollarSafe_cons (h : isDollarSafe (c :: s)) :
    isDollarSafe s ∧ (c = '$' → ∃ d t, s = d :: t ∧ d ≠ '$') := by
  simp only [isDollarSafe, Text.occursIn, Bool.and_eq_true, Bool.not_eq_true',
    Bool.or_eq_false_iff, bne_iff_ne, ne_eq] at h ⊢
  obtain ⟨⟨hhere, hlater⟩, hlast⟩ := h
  cases s with
  | nil => exact ⟨⟨rfl, nofun⟩, fun hc => absurd (congrArg some hc) hlast⟩
  | cons d t =>
    refine ⟨⟨hlater, by rwa [List.getLast?_cons_cons] at hlast⟩, ?_⟩
    rintro rfl
    exact ⟨d, t, rfl, fun hd => by simp [hd] at hhere⟩

theorem dollarText?_append (h : isDollarSafe s) :
    dollarText? (s ++ '$' :: '$' :: rest) = some (s, rest) := by
  induction s with
  | nil => rfl
  | cons c s ih =>
    obtain ⟨hs, hc⟩ := isDollarSafe_cons h
    rw [List.cons_append, dollarText?, ih hs]
    · rfl
    · rintro t rfl ht
      obtain ⟨d, u, rfl, hd⟩ := hc rfl
      exact hd (List.cons.inj ht).1

theorem quotedText?_append (h : rest.head? ≠ some '\'') :
    quotedText? (doubleQuotes s ++ '\'' :: rest) = some (s, rest) := by
  induction s with
  | nil =>
    show quotedText? ('\'' :: rest) = _
    rw [quotedText?]
    rintro t rfl
    exact h rfl
  | cons c s ih =>
    rw [doubleQuotes, List.flatMap_cons, List.append_assoc]
    split
    next hc =>
      subst hc
      show quotedText? ('\'' :: '\'' :: (doubleQuotes s ++ _)) = _
      rw [quotedText?, ih]
      rfl
    next hc =>
      show quotedText? (c :: (doubleQuotes s ++ _)) = _
      rw [quotedText?, ih]
      · rfl
      · exact fun t heq => absurd heq hc
      · exact fun heq => absurd heq hc

/-! ## Words -/

theorem MayFollow.isWordChar_eq (h : MayFollow (c :: rest)) : isWordChar c = false := by
  obtain rfl | rfl | rfl := h c rfl <;> rfl

theorem spelled?_word (hne : w ≠ []) (hw : ∀ c ∈ w, isWordChar c) (hrest : MayFollow rest) :
    spelled? (w ++ rest) = some (.word w, rest) := by
  have htake : (w ++ rest).takeWhile isWordChar = w := by
    rw [List.takeWhile_append_of_pos hw]
    cases rest with
    | nil => simp
    | cons d rest => simp [hrest.isWordChar_eq]
  have hdrop : (w ++ rest).dropWhile isWordChar = rest := by
    rw [List.dropWhile_append_of_pos hw]
    cases rest with
    | nil => rfl
    | cons d rest => simp [hrest.isWordChar_eq]
  obtain ⟨c, t, rfl⟩ := List.exists_cons_of_ne_nil hne
  have hc : isWordChar c := hw c List.mem_cons_self
  rw [spelled?]
  · simp only [htake, hdrop]
    rfl
  all_goals
    rintro u heq
    rw [(List.cons.inj heq).1] at hc
    exact absurd hc (by decide)

theorem isWordChar_of_isBare (h : isBare s) (hc : c ∈ s) : isWordChar c := by
  have hbare : isBareChar c := by
    cases s with
    | nil => cases hc
    | cons d t => exact List.all_eq_true.mp (Bool.and_eq_true_iff.mp h).2 c hc
  simp only [isBareChar, Bool.or_eq_true] at hbare
  obtain ((h | h) | h) | h := hbare <;> simp [isWordChar, Text.isLetter, h]

theorem isWordChar_of_mem_text {n : Json.Number} (h : c ∈ n.text) : isWordChar c := by
  have hword := Json.Number.isWordChar_of_mem_text h
  simp only [Json.Token.isWordChar, Bool.or_eq_true] at hword
  obtain (((h | h) | h) | h) | h := hword <;> simp [isWordChar, h]

/-! ## Values -/

mutual

/-- What the literal of a value under `key` says. -/
def spelling (key : String) : Json → Spelled
  | .null => .word "NULL".toList
  | .bool true => .word "TRUE".toList
  | .bool false => .word "FALSE".toList
  | .number n => .word n.text
  | .string s => if key ≠ "comment" ∧ isBare s.toList then .word s.toList else .text s.toList
  | .array items => .list (spellings key items)
  | .object members => .text (Json.object members).text

def spellings (key : String) : List Json → List Spelled
  | [] => []
  | v :: vs => spelling key v :: spellings key vs

end

theorem MayFollow.quote (h : MayFollow rest) : rest.head? ≠ some '\'' := by
  intro hq
  obtain heq | heq | heq := h _ hq <;> cases heq

theorem spelled?_quote (h : MayFollow rest) :
    spelled? (quote s ++ rest) = some (.text s, rest) := by
  rw [quote, List.cons_append, List.append_assoc, spelled?]
  show (quotedText? (doubleQuotes s ++ '\'' :: rest)).map _ = _
  rw [quotedText?_append h.quote]
  rfl

theorem spelled?_textLiteral (h : MayFollow rest) :
    spelled? (textLiteral key s ++ rest) =
      some (if key ≠ "comment" ∧ isBare s then .word s else .text s, rest) := by
  unfold textLiteral
  by_cases hkey : key = "comment"
  · have hbare : ¬(key ≠ "comment" ∧ isBare s) := fun h => h.1 hkey
    rw [if_pos hkey, if_neg hbare]
    split
    next hsafe =>
      show spelled? ('$' :: '$' :: (s ++ ['$', '$'] ++ rest)) = _
      rw [spelled?, List.append_assoc]
      show (dollarText? (s ++ '$' :: '$' :: rest)).map _ = _
      rw [dollarText?_append hsafe]
      rfl
    · exact spelled?_quote h
  · rw [if_neg hkey]
    split
    next hbare =>
      rw [if_pos ⟨hkey, hbare⟩]
      refine spelled?_word ?_ (fun c => isWordChar_of_isBare hbare) h
      rintro rfl
      cases hbare
    next hbare =>
      rw [if_neg fun h => hbare h.2]
      exact spelled?_quote h

theorem exists_literal (key : String) (v : Json) :
    ∃ c t, literal key v = c :: t ∧ c ≠ ' ' ∧ c ≠ ')' := by
  have hword {w : List Char} (hne : w ≠ []) (hw : ∀ c ∈ w, isWordChar c) :
      ∃ c t, w = c :: t ∧ c ≠ ' ' ∧ c ≠ ')' := by
    obtain ⟨c, t, rfl⟩ := List.exists_cons_of_ne_nil hne
    have hc := hw c List.mem_cons_self
    refine ⟨c, t, rfl, ?_, ?_⟩ <;> (rintro rfl; exact absurd hc (by decide))
  cases v with
  | null => exact ⟨_, _, rfl, by decide, by decide⟩
  | bool b => cases b <;> exact ⟨_, _, rfl, by decide, by decide⟩
  | number n => exact hword n.text_ne_nil fun _ => isWordChar_of_mem_text
  | string s =>
    rw [literal, textLiteral]
    split
    · split <;> exact ⟨_, _, rfl, by decide, by decide⟩
    · split
      next hbare =>
        refine hword ?_ fun _ => isWordChar_of_isBare hbare
        intro hnil
        rw [hnil] at hbare
        cases hbare
      · exact ⟨_, _, rfl, by decide, by decide⟩
  | array items => exact ⟨_, _, rfl, by decide, by decide⟩
  | object members => exact ⟨_, _, rfl, by decide, by decide⟩

theorem skipBlanks_literal (key : String) (v : Json) (s : List Char) :
    skipBlanks (literal key v ++ s) = literal key v ++ s := by
  obtain ⟨c, t, hv, hblank, -⟩ := exists_literal key v
  simp [hv, skipBlanks, hblank]

mutual

theorem spelled?_literal (key : String) (rest : List Char) (h : MayFollow rest) : (v : Json) →
    spelled? (literal key v ++ rest) = some (spelling key v, rest)
  | .null => by
    rw [literal, spelling]
    exact spelled?_word (by decide) (fun _ => List.all_eq_true.mp rfl _) h
  | .bool true => by
    rw [literal, spelling]
    exact spelled?_word (by decide) (fun _ => List.all_eq_true.mp rfl _) h
  | .bool false => by
    rw [literal, spelling]
    exact spelled?_word (by decide) (fun _ => List.all_eq_true.mp rfl _) h
  | .number n => by
    rw [literal, spelling]
    exact spelled?_word n.text_ne_nil (fun _ => isWordChar_of_mem_text) h
  | .string s => by rw [literal, spelled?_textLiteral h, spelling]
  | .object members => by rw [literal, spelled?_quote h, spelling]
  | .array [] => by
    rw [literal, spelling]
    show spelled? ('(' :: ')' :: rest) = _
    rw [spelled?]
    rfl
  | .array (v :: vs) => by
    have hblanks : skipBlanks (literals key (v :: vs) ++ ')' :: rest) =
        literals key (v :: vs) ++ ')' :: rest := by
      rw [literals, List.append_assoc, skipBlanks_literal]
    have hitems := items?_literals key rest _ (v :: vs) (List.cons_ne_nil _ _) hblanks
    rw [literal, spelling, List.cons_append, List.append_assoc, List.singleton_append, spelled?,
      hblanks, hitems]
    split
    next heq =>
      obtain ⟨c, t, hv, -, hclose⟩ := exists_literal key v
      rw [literals, hv] at heq
      exact absurd (List.cons.inj heq).1 hclose
    · rfl

theorem items?_literals (key : String) (rest s : List Char) : (vs : List Json) → vs ≠ [] →
    skipBlanks s = literals key vs ++ ')' :: rest →
    items? s = some (spellings key vs, rest)
  | [], h, _ => absurd rfl h
  | [v], _, hs => by
    rw [items?, hs, literals, List.append_assoc,
      spelled?_literal key _ (by simp [laterLiterals, MayFollow]) v]
    rfl
  | v :: w :: vs, _, hs => by
    let more := ' ' :: (literals key (w :: vs) ++ ')' :: rest)
    have htext : literals key (v :: w :: vs) ++ ')' :: rest = literal key v ++ ',' :: more := by
      simp [literals, laterLiterals, more]
    have hmore : skipBlanks more = literals key (w :: vs) ++ ')' :: rest := by
      rw [literals, List.append_assoc, ← skipBlanks_literal]
      simp [more, literals, skipBlanks]
    have hless : more.length < s.length := by
      have hle : (skipBlanks s).length ≤ s.length := List.length_dropWhile_le _ _
      rw [hs, htext, List.length_append, List.length_cons] at hle
      omega
    rw [items?, hs, htext, spelled?_literal key _ (by simp [MayFollow]) v]
    show (if more.length < s.length then (items? more).map _ else none) = _
    rw [if_pos hless, items?_literals key rest more (w :: vs) (List.cons_ne_nil _ _) hmore]
    rfl

end

/-! ## Texts read back -/

mutual

def isTextual : Json → Bool
  | .string _ => true
  | .array items => areTextual items
  | _ => false

def areTextual : List Json → Bool
  | [] => true
  | v :: vs => isTextual v && areTextual vs

end

mutual

def Spelled.toJson : Spelled → Json
  | .word chars => .string (String.ofList chars)
  | .text chars => .string (String.ofList chars)
  | .list items => .array (Spelled.itemsToJson items)

def Spelled.itemsToJson : List Spelled → List Json
  | [] => []
  | l :: ls => l.toJson :: Spelled.itemsToJson ls

end

mutual

theorem toJson_spelling (key : String) : (v : Json) → isTextual v → (spelling key v).toJson = v
  | .string s, _ => by
    rw [spelling]
    split <;> rw [Spelled.toJson, String.ofList_toList]
  | .array items, h => by
    rw [isTextual] at h
    rw [spelling, Spelled.toJson, itemsToJson_spellings key items h]

theorem itemsToJson_spellings (key : String) : (vs : List Json) → areTextual vs →
    Spelled.itemsToJson (spellings key vs) = vs
  | [], _ => rfl
  | v :: vs, h => by
    rw [areTextual, Bool.and_eq_true] at h
    rw [spellings, Spelled.itemsToJson, toJson_spelling key v h.1,
      itemsToJson_spellings key vs h.2]

end

/-- The literal of a value, followed by anything that may follow one, is read back whole and
nothing beyond it; the texts that the value is made of come back unchanged. -/
theorem spelled?_value (key : String) (v : Json) (rest : List Char) (h : MayFollow rest) :
    spelled? ((value key v).toList ++ rest) = some (spelling key v, rest) ∧
      (isTextual v → (spelling key v).toJson = v) := by
  rw [value, String.toList_ofList]
  exact ⟨spelled?_literal key rest h v, toJson_spelling key v⟩

theorem spelled?_value_comments :
    MayFollow ") DROP".toList ∧
      spelled? ((value "comment" (.array [.string "$$; '", .string "it's $"])).toList ++
        ") DROP".toList) =
          some (.list [.text "$$; '".toList, .text "it's $".toList], ") DROP".toList) :=
  have hfollow : MayFollow ") DROP".toList := fun _ hc => .inr (.inr (Option.some.inj hc).symm)
  ⟨hfollow, (spelled?_value "comment" (.array [.string "$$; '", .string "it's $"])
    ") DROP".toList hfollow).1⟩

end Sql
end Reconcile
