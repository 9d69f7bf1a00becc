import Reconcile.Json.Printer
import Reconcile.Proofs.Json.Number
/-!
The tokens of written text.  A text is followed by more of it, so what it spells is said for every
continuation that does not go on with a word.  Main statement: `spells_indentedText`, the indented
text of a value spells its tokens.
-/

namespace Reconcile
namespace Json

mutual

def tokens : Json → List Token
  | null => [.atom null]
  | bool b => [.atom (bool b)]
  | number n => [.atom (number n)]
  | string s => [.atom (string s)]
  | array [] => [.openArray, .closeArray]
  | array (x :: xs) => .openArray :: (tokens x ++ (laterItemTokens xs ++ [.closeArray]))
  | object [] => [.openObject, .closeObject]
  | object ((k, x) :: ms) =>
    .openObject :: .atom (.string k) :: .colon ::
      (tokens x ++ (laterMemberTokens ms ++ [.closeObject]))

def laterItemTokens : List Json → List Token
  | [] => []
  | x :: xs => .comma :: (tokens x ++ laterItemTokens xs)

def laterMemberTokens : List (String × Json) → List Token
  | [] => []
  | (k, x) :: ms => .comma :: .atom (.string k) :: .colon :: (tokens x ++ laterMemberTokens ms)

end

mutual

def isWhole : Json → Bool
  | number n => n.isInteger
  | array xs => areWhole xs
  | object ms => membersAreWhole ms
  | _ => true

def areWhole : List Json → Bool
  | [] => true
  | x :: xs => isWhole x && areWhole xs

def membersAreWhole : List (String × Json) → Bool
  | [] => true
  | (_, x) :: ms => isWhole x && membersAreWhole ms

end

theorem isWhole_array_iff {xs : List Json} : (array xs).isWhole ↔ ∀ x ∈ xs, x.isWhole := by
  rw [isWhole]
  induction xs with
  | nil => simp [areWhole]
  | cons x xs ih => rw [areWhole, Bool.and_eq_true, ih, List.forall_mem_cons]

theorem isWhole_object_iff {ms : List (String × Json)} :
    (object ms).isWhole ↔ ∀ m ∈ ms, m.2.isWhole := by
  rw [isWhole]
  induction ms with
  | nil => simp [membersAreWhole]
  | cons m ms ih => rw [membersAreWhole, Bool.and_eq_true, ih, List.forall_mem_cons]

namespace Token

variable {s s' w rest : List Char} {ts ts' : List Token} {t : Token} {c : Char} {depth : Nat}

/-- The text is empty or starts with a character that no word has. -/
def EndsWord (rest : List Char) : Prop := ∀ c ∈ rest.head?, isWordChar c = false

theorem endsWord_nil : EndsWord [] := fun _ h => nomatch h

theorem endsWord_cons (h : isWordChar c = false) : EndsWord (c :: s) := fun d hd => by
  obtain rfl : c = d := Option.some.inj hd
  exact h

theorem EndsWord.append (h : EndsWord s) (hrest : EndsWord rest) : EndsWord (s ++ rest) := by
  cases s with
  | nil => exact hrest
  | cons c s => exact h

/-- The text stands for the tokens wherever it does not run into a word. -/
def Spells (s : List Char) (ts : List Token) : Prop :=
  ∀ rest, EndsWord rest → readFrom? .between (s ++ rest) = (readFrom? .between rest).map (ts ++ ·)

theorem Spells.nil : Spells [] [] := fun rest _ => by simp

theorem Spells.append (h : Spells s ts) (hends : EndsWord s') (h' : Spells s' ts') :
    Spells (s ++ s') (ts ++ ts') := by
  intro rest hrest
  rw [List.append_assoc, h _ (hends.append hrest), h' _ hrest, Option.map_map]
  simp [Function.comp_def]

/-! ## Blanks and punctuation -/

theorem readFrom?_space (h : isSpace c) :
    readFrom? .between (c :: rest) = readFrom? .between rest := by
  rw [readFrom?, next?, start?, if_pos h]
  simp

theorem Spells.blank (h : Spells s ts) : Spells (' ' :: s) ts := fun rest hrest => by
  rw [List.cons_append, readFrom?_space rfl, h _ hrest]

theorem Spells.newLine (h : Spells s ts) : Spells (newLine depth ++ s) ts := by
  intro rest hrest
  have hblanks (n : Nat) : readFrom? .between (List.replicate n ' ' ++ (s ++ rest)) =
      readFrom? .between (s ++ rest) := by
    induction n with
    | zero => rfl
    | succ n ih => rw [List.replicate_succ, List.cons_append, readFrom?_space rfl, ih]
  rw [Json.newLine, List.cons_append, List.cons_append, readFrom?_space rfl, List.append_assoc,
    hblanks, h _ hrest]

theorem Spells.cons (hc : start? c = some ([t], .between)) (h : Spells s ts) :
    Spells (c :: s) (t :: ts) := by
  intro rest hrest
  rw [List.cons_append, readFrom?, next?, hc]
  show (readFrom? .between (s ++ rest)).map ([t] ++ ·) = _
  rw [h _ hrest, Option.map_map]
  rfl

/-! ## Words -/

theorem start?_of_isWordChar (h : isWordChar c) : start? c = some ([], .word [c]) := by
  have hne {d : Char} (hd : isWordChar d = false) : c ≠ d := by
    rintro rfl
    rw [h] at hd
    cases hd
  have hspace : isSpace c = false := by
    simp only [isSpace, Bool.or_eq_false_iff, beq_eq_false_iff_ne]
    exact ⟨⟨⟨hne rfl, hne rfl⟩, hne rfl⟩, hne rfl⟩
  rw [start?, hspace, if_neg Bool.false_ne_true, if_neg (hne rfl), if_pos h]

theorem readFrom?_wordChars (done : List Char) (hw : ∀ c ∈ w, isWordChar c) :
    readFrom? (.word done) (w ++ rest) = readFrom? (.word (w.reverse ++ done)) rest := by
  induction w generalizing done with
  | nil => rfl
  | cons c w ih =>
    have hc : isWordChar c := hw c List.mem_cons_self
    rw [List.cons_append, readFrom?, next?, if_pos hc]
    show (readFrom? (.word (c :: done)) (w ++ rest)).map ([] ++ ·) = _
    rw [ih (c :: done) fun d hd => hw d (List.mem_cons_of_mem _ hd), List.reverse_cons,
      List.append_assoc]
    simp

theorem spells_word (hne : w ≠ []) (hw : ∀ c ∈ w, isWordChar c) (ht : ofWord? w = some t) :
    Spells w [t] := by
  intro rest hrest
  obtain ⟨c, u, rfl⟩ := List.exists_cons_of_ne_nil hne
  have hrun : readFrom? .between (c :: u ++ rest) = readFrom? (.word (c :: u).reverse) rest := by
    rw [List.cons_append, readFrom?, next?, start?_of_isWordChar (hw c List.mem_cons_self)]
    show (readFrom? (.word [c]) (u ++ rest)).map ([] ++ ·) = _
    rw [readFrom?_wordChars [c] fun d hd => hw d (List.mem_cons_of_mem _ hd), List.reverse_cons]
    simp
  rw [hrun]
  cases rest with
  | nil =>
    show (ofWord? (c :: u).reverse.reverse).map _ = some [t]
    rw [List.reverse_reverse, ht]
    rfl
  | cons d rest =>
    rw [readFrom?, next?, if_neg (by simp [hrest d rfl]), List.reverse_reverse, ht, readFrom?,
      next?]
    cases hd : start? d with
    | none => rfl
    | some r => simp [Function.comp_def]

/-! ## Texts -/

theorem hexValue?_lowerHexDigit {n : Nat} (h : n < 16) :
    Text.hexValue? (lowerHexDigit n) = some n := by
  have hall : ∀ m : Fin 16, Text.hexValue? (lowerHexDigit m) = some m.val := by decide
  exact hall ⟨n, h⟩

theorem readFrom?_cons {r r' : Reading} (h : next? r c = some ([], r')) :
    readFrom? r (c :: rest) = readFrom? r' rest := by
  rw [readFrom?, h]
  simp

theorem readFrom?_control (done : List Char) (h : c.toNat < 0x20) :
    readFrom? (.text done) ('\\' :: 'u' :: '0' :: '0' :: lowerHexDigit (c.toNat / 16) ::
      lowerHexDigit (c.toNat % 16) :: rest) = readFrom? (.text (c :: done)) rest := by
  have hhigh := hexValue?_lowerHexDigit (n := c.toNat / 16) (by omega)
  have hlow := hexValue?_lowerHexDigit (n := c.toNat % 16) (by omega)
  have hvalue : [c.toNat % 16, c.toNat / 16, 0, 0].foldr (fun d n => n * 16 + d) 0 = c.toNat := by
    simp only [List.foldr_cons, List.foldr_nil]
    omega
  -- The number is below every half of a surrogate pair.
  have hfinish : finishUnicode done none c.toNat = .text (c :: done) := by
    have hnotHigh : isHigh c.toNat = false := by simp [isHigh]; omega
    have hnotLow : isLow c.toNat = false := by simp [isLow]; omega
    simp [finishUnicode, hnotHigh, hnotLow, Char.ofNat_toNat]
  have hthird : next? (.unicode done none [0, 0]) (lowerHexDigit (c.toNat / 16)) =
      some ([], .unicode done none [c.toNat / 16, 0, 0]) := by
    rw [next?, hhigh]
    rfl
  have hfourth : next? (.unicode done none [c.toNat / 16, 0, 0]) (lowerHexDigit (c.toNat % 16)) =
      some ([], .text (c :: done)) := by
    rw [next?, hlow]
    show some (_, finishUnicode done none ([c.toNat % 16, c.toNat / 16, 0, 0].foldr _ 0)) = _
    rw [hvalue, hfinish]
  have hstart : readFrom? (.text done) ('\\' :: 'u' :: '0' :: '0' ::
      lowerHexDigit (c.toNat / 16) :: lowerHexDigit (c.toNat % 16) :: rest) =
        readFrom? (.unicode done none [0, 0])
          (lowerHexDigit (c.toNat / 16) :: lowerHexDigit (c.toNat % 16) :: rest) := by
    rw [readFrom?_cons rfl, readFrom?_cons rfl, readFrom?_cons rfl, readFrom?_cons rfl]
    rfl
  rw [hstart, readFrom?_cons hthird, readFrom?_cons hfourth]

theorem readFrom?_charText (done : List Char) (c : Char) :
    readFrom? (.text done) (charText c ++ rest) = readFrom? (.text (c :: done)) rest := by
  have hescaped {d : Char} (hd : next? (.escape done) d = some ([], .text (c :: done))) :
      readFrom? (.text done) ('\\' :: d :: rest) = readFrom? (.text (c :: done)) rest := by
    rw [readFrom?_cons rfl, readFrom?_cons hd]
  unfold charText
  split_ifs with hquote hbackslash hbs htab hnl hff hcr hcontrol
  · exact hescaped (by rw [beq_iff_eq.mp hquote]; rfl)
  · exact hescaped (by rw [beq_iff_eq.mp hbackslash]; rfl)
  · exact hescaped (by rw [beq_iff_eq.mp hbs]; rfl)
  · exact hescaped (by rw [beq_iff_eq.mp htab]; rfl)
  · exact hescaped (by rw [beq_iff_eq.mp hnl]; rfl)
  · exact hescaped (by rw [beq_iff_eq.mp hff]; rfl)
  · exact hescaped (by rw [beq_iff_eq.mp hcr]; rfl)
  · exact readFrom?_control done hcontrol
  · refine readFrom?_cons ?_
    rw [next?, if_neg (by simpa using hquote), if_neg (by simpa using hbackslash),
      if_neg hcontrol]

theorem readFrom?_text (done : List Char) :
    readFrom? (.text done) (s.flatMap charText ++ '"' :: rest) =
      (readFrom? .between rest).map (atom (.string (String.ofList (done.reverse ++ s))) :: ·) := by
  induction s generalizing done with
  | nil =>
    rw [List.flatMap_nil, List.nil_append, List.append_nil]
    rfl
  | cons c s ih =>
    rw [List.flatMap_cons, List.append_assoc, readFrom?_charText, ih (c :: done)]
    simp

theorem Spells.key (k : String) (h : Spells s ts) :
    Spells (stringText k ++ s) (atom (.string k) :: ts) := by
  intro rest hrest
  rw [stringText, List.cons_append, List.cons_append, readFrom?_cons rfl, List.append_assoc,
    List.append_assoc, List.singleton_append, readFrom?_text, h rest hrest, Option.map_map]
  simp [Function.comp_def]

/-! ## Values -/

theorem ofWord?_of_ofText? {n : Number} (h : Number.ofText? w = some n) :
    ofWord? w = some (atom (.number n)) := by
  have hne {u : List Char} (hu : Number.ofText? u = none) : w ≠ u := by
    rintro rfl
    rw [hu] at h
    cases h
  obtain ⟨l, hl, hv⟩ := Option.bind_eq_some_iff.mp h
  rw [ofWord?, if_neg (hne rfl), if_neg (hne rfl), if_neg (hne rfl), hl, Option.map_some, hv]

theorem spells_number {n : Number} (h : n.isInteger) : Spells n.text [atom (.number n)] :=
  spells_word n.text_ne_nil (fun _ => Number.isWordChar_of_mem_text)
    (ofWord?_of_ofText? (Number.ofText?_text h))

theorem endsWord_indentedItems (depth : Nat) (xs : List Json) :
    EndsWord (indentedItems depth xs) := by
  cases xs with
  | nil => exact endsWord_nil
  | cons x xs => exact endsWord_cons rfl

theorem endsWord_indentedMembers (depth : Nat) (ms : List (String × Json)) :
    EndsWord (indentedMembers depth ms) := by
  cases ms with
  | nil => exact endsWord_nil
  | cons m ms => exact endsWord_cons rfl

mutual

theorem spells_indentedText (depth : Nat) : (v : Json) → v.isWhole →
    Spells (v.indentedText depth) (tokens v)
  | .null, _ => by
    rw [indentedText, tokens]
    exact spells_word (by decide) (fun _ => List.all_eq_true.mp rfl _) rfl
  | .bool b, _ => by
    rw [indentedText, tokens]
    cases b <;> exact spells_word (by decide) (fun _ => List.all_eq_true.mp rfl _) rfl
  | .number n, h => by
    rw [isWhole] at h
    rw [indentedText, tokens]
    exact spells_number h
  | .string s, _ => by simpa [indentedText, tokens] using Spells.nil.key s
  | .array [], _ => by
    rw [indentedText, tokens]
    exact .cons rfl (.cons rfl .nil)
  | .object [], _ => by
    rw [indentedText, tokens]
    exact .cons rfl (.cons rfl .nil)
  | .array (x :: xs), h => by
    obtain ⟨hx, hxs⟩ : x.isWhole ∧ areWhole xs := by simpa [isWhole, areWhole] using h
    have hclose : Spells (newLine depth ++ [']']) [.closeArray] := .newLine (.cons rfl .nil)
    have hends : EndsWord (newLine depth ++ [']']) := endsWord_cons rfl
    have hrest := (spells_indentedItems depth xs hxs).append hends hclose
    have hall := (spells_indentedText (depth + 1) x hx).append
      ((endsWord_indentedItems depth xs).append hends) hrest
    simpa [indentedText, tokens] using hall.newLine.cons (c := '[') rfl
  | .object ((k, x) :: ms), h => by
    obtain ⟨hx, hms⟩ : x.isWhole ∧ membersAreWhole ms := by
      simpa [isWhole, membersAreWhole] using h
    have hclose : Spells (newLine depth ++ ['}']) [.closeObject] := .newLine (.cons rfl .nil)
    have hends : EndsWord (newLine depth ++ ['}']) := endsWord_cons rfl
    have hrest := (spells_indentedMembers depth ms hms).append hends hclose
    have hall := (spells_indentedText (depth + 1) x hx).append
      ((endsWord_indentedMembers depth ms).append hends) hrest
    have hmember := (hall.blank.cons (c := ':') rfl).key k
    simpa [indentedText, tokens] using hmember.newLine.cons (c := '{') rfl

theorem spells_indentedItems (depth : Nat) : (xs : List Json) → areWhole xs →
    Spells (indentedItems depth xs) (laterItemTokens xs)
  | [], _ => .nil
  | x :: xs, h => by
    obtain ⟨hx, hxs⟩ : x.isWhole ∧ areWhole xs := by simpa [areWhole] using h
    have hall := (spells_indentedText (depth + 1) x hx).append
      (endsWord_indentedItems depth xs) (spells_indentedItems depth xs hxs)
    simpa [indentedItems, laterItemTokens] using hall.newLine.cons (c := ',') rfl

theorem spells_indentedMembers (depth : Nat) : (ms : List (String × Json)) → membersAreWhole ms →
    Spells (indentedMembers depth ms) (laterMemberTokens ms)
  | [], _ => .nil
  | (k, x) :: ms, h => by
    obtain ⟨hx, hms⟩ : x.isWhole ∧ membersAreWhole ms := by simpa [membersAreWhole] using h
    have hall := (spells_indentedText (depth + 1) x hx).append
      (endsWord_indentedMembers depth ms) (spells_indentedMembers depth ms hms)
    have hmember := (hall.blank.cons (c := ':') rfl).key k
    simpa [indentedMembers, laterMemberTokens] using hmember.newLine.cons (c := ',') rfl

end

end Token
end Json
end Reconcile
