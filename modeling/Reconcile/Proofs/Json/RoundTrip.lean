import Reconcile.Json.Reader
import Reconcile.Proofs.Json.Token
/-!
Written values are read back as they are, as deep as the reader goes.  Main statement:
`parse?_renderIndented`.
-/

namespace Reconcile
namespace Json

/-! ## Depth -/

mutual

/-- How many arrays and objects are open at once in the text of the value. -/
def depth : Json → Nat
  | array xs => itemsDepth xs + 1
  | object ms => membersDepth ms + 1
  | _ => 0

def itemsDepth : List Json → Nat
  | [] => 0
  | x :: xs => max (depth x) (itemsDepth xs)

def membersDepth : List (String × Json) → Nat
  | [] => 0
  | (_, x) :: ms => max (depth x) (membersDepth ms)

end

theorem itemsDepth_le_iff {xs : List Json} {n : Nat} :
    itemsDepth xs ≤ n ↔ ∀ x ∈ xs, x.depth ≤ n := by
  induction xs with
  | nil => simp [itemsDepth]
  | cons x xs ih => rw [itemsDepth, Nat.max_le, ih, List.forall_mem_cons]

theorem membersDepth_le_iff {ms : List (String × Json)} {n : Nat} :
    membersDepth ms ≤ n ↔ ∀ m ∈ ms, m.2.depth ≤ n := by
  induction ms with
  | nil => simp [membersDepth]
  | cons m ms ih => rw [membersDepth, Nat.max_le, ih, List.forall_mem_cons]

theorem depth_array_le_iff {xs : List Json} {n : Nat} :
    (array xs).depth ≤ n + 1 ↔ ∀ x ∈ xs, x.depth ≤ n := by
  rw [depth, Nat.add_le_add_iff_right, itemsDepth_le_iff]

theorem depth_object_le_iff {ms : List (String × Json)} {n : Nat} :
    (object ms).depth ≤ n + 1 ↔ ∀ m ∈ ms, m.2.depth ≤ n := by
  rw [depth, Nat.add_le_add_iff_right, membersDepth_le_iff]

/-! ## Values from tokens -/

variable {fs : List Frame} {ts : List Token} {e e' : Expecting} {t : Token}

theorem Expecting.run?_cons (h : e.next? t = some e') : e.run? (t :: ts) = e'.run? ts := by
  rw [run?, h]

theorem Expecting.run?_ite {p : Prop} [Decidable p]
    (h : e.next? t = if p then some e' else none) :
    e.run? (t :: ts) = if p then e'.run? ts else none := by
  by_cases hp : p
  · rw [if_pos hp, run?_cons (h.trans (if_pos hp))]
  · rw [if_neg hp, run?, h.trans (if_neg hp)]

theorem run?_openArray (b : Bool) : (Expecting.value b fs).run? (.openArray :: ts) =
    if fs.length < nestingLimit then (Expecting.value true (.items [] :: fs)).run? ts
    else none :=
  Expecting.run?_ite rfl

theorem run?_openObject (b : Bool) : (Expecting.value b fs).run? (.openObject :: ts) =
    if fs.length < nestingLimit then (Expecting.key true [] fs).run? ts else none :=
  Expecting.run?_ite rfl

theorem run?_atom (b : Bool) (v : Json) (hfs : fs.length ≤ nestingLimit) (hv : v.depth = 0) :
    (Expecting.value b fs).run? ([.atom v] ++ ts) =
      if fs.length + v.depth ≤ nestingLimit then (Expecting.after v fs).run? ts else none := by
  rw [hv, Nat.add_zero, if_pos hfs, List.singleton_append, Expecting.run?_cons]
  rfl

-- The open frames are general, since an item is read with one more of them than its array.
mutual

/-- The tokens of a value are read as that value, unless they open too many arrays and objects. -/
theorem run?_tokens (b : Bool) (fs : List Frame) (ts : List Token)
    (hfs : fs.length ≤ nestingLimit) : (v : Json) →
    (Expecting.value b fs).run? (tokens v ++ ts) =
      if fs.length + v.depth ≤ nestingLimit then (Expecting.after v fs).run? ts else none
  | .null => run?_atom b .null hfs rfl
  | .bool c => run?_atom b (.bool c) hfs rfl
  | .number n => run?_atom b (.number n) hfs rfl
  | .string s => run?_atom b (.string s) hfs rfl
  | .array [] => by
    rw [tokens, List.cons_append, run?_openArray]
    exact if_congr Iff.rfl (Expecting.run?_cons rfl) rfl
  | .object [] => by
    rw [tokens, List.cons_append, run?_openObject]
    exact if_congr Iff.rfl (Expecting.run?_cons rfl) rfl
  | .array (x :: xs) => by
    have hdepth : fs.length + (array (x :: xs)).depth ≤ nestingLimit ↔
        fs.length < nestingLimit ∧ fs.length + 1 + x.depth ≤ nestingLimit ∧
          fs.length + 1 + itemsDepth xs ≤ nestingLimit := by
      rw [depth, itemsDepth]
      omega
    rw [tokens, List.cons_append, run?_openArray]
    by_cases h : fs.length < nestingLimit
    · rw [if_pos h, List.append_assoc, List.append_assoc, run?_tokens true (.items [] :: fs) _ h x,
        List.singleton_append, run?_laterItemTokens [] fs ts x h xs, ← ite_and]
      exact if_congr (by simp [hdepth, h]) rfl rfl
    · rw [if_neg h, if_neg fun hle => h (hdepth.mp hle).1]
  | .object ((k, x) :: ms) => by
    have hdepth : fs.length + (object ((k, x) :: ms)).depth ≤ nestingLimit ↔
        fs.length < nestingLimit ∧ fs.length + 1 + x.depth ≤ nestingLimit ∧
          fs.length + 1 + membersDepth ms ≤ nestingLimit := by
      rw [depth, membersDepth]
      omega
    rw [tokens, List.cons_append, run?_openObject]
    by_cases h : fs.length < nestingLimit
    · rw [if_pos h, List.cons_append, Expecting.run?_cons rfl, List.cons_append,
        Expecting.run?_cons rfl, List.append_assoc, List.append_assoc,
        run?_tokens false (.members [] k :: fs) _ h x, List.singleton_append,
        run?_laterMemberTokens [] fs ts k x h ms, ← ite_and]
      exact if_congr (by simp [hdepth, h]) rfl rfl
    · rw [if_neg h, if_neg fun hle => h (hdepth.mp hle).1]

theorem run?_laterItemTokens (done : List Json) (fs : List Frame) (ts : List Token) (x : Json)
    (hfs : fs.length < nestingLimit) : (xs : List Json) →
    (Expecting.after x (.items done :: fs)).run? (laterItemTokens xs ++ .closeArray :: ts) =
      if fs.length + 1 + itemsDepth xs ≤ nestingLimit then
        (Expecting.after (.array (done.reverse ++ x :: xs)) fs).run? ts
      else none
  | [] => by
    rw [itemsDepth, Nat.add_zero, if_pos (Nat.succ_le_of_lt hfs), laterItemTokens, List.nil_append,
      Expecting.run?_cons rfl, List.reverse_cons]
  | y :: xs => by
    rw [laterItemTokens, List.cons_append, Expecting.run?_cons rfl, List.append_assoc,
      run?_tokens false (.items (x :: done) :: fs) _ hfs y,
      run?_laterItemTokens (x :: done) fs ts y hfs xs, ← ite_and]
    refine if_congr ?_ (by simp) rfl
    rw [itemsDepth, List.length_cons]
    omega

theorem run?_laterMemberTokens (done : List (String × Json)) (fs : List Frame) (ts : List Token)
    (k : String) (x : Json) (hfs : fs.length < nestingLimit) : (ms : List (String × Json)) →
    (Expecting.after x (.members done k :: fs)).run? (laterMemberTokens ms ++ .closeObject :: ts) =
      if fs.length + 1 + membersDepth ms ≤ nestingLimit then
        (Expecting.after (.object (done.reverse ++ (k, x) :: ms)) fs).run? ts
      else none
  | [] => by
    rw [membersDepth, Nat.add_zero, if_pos (Nat.succ_le_of_lt hfs), laterMemberTokens,
      List.nil_append, Expecting.run?_cons rfl, List.reverse_cons]
  | (j, y) :: ms => by
    rw [laterMemberTokens, List.cons_append, Expecting.run?_cons rfl, List.cons_append,
      Expecting.run?_cons rfl, List.cons_append, Expecting.run?_cons rfl, List.append_assoc,
      run?_tokens false (.members ((k, x) :: done) j :: fs) _ hfs y,
      run?_laterMemberTokens ((k, x) :: done) fs ts j y hfs ms, ← ite_and]
    refine if_congr ?_ (by simp) rfl
    rw [membersDepth, List.length_cons]
    omega

end

/-! ## Written text -/

/-- A value that is written over several lines is read back unless it is too deep. -/
theorem parse?_renderIndented {v : Json} (h : v.isWhole) :
    parse? (renderIndented v) = if v.depth ≤ nestingLimit then some v else none := by
  have hread : Token.read? (v.indentedText 0) = some (tokens v) := by
    have hspells := Token.spells_indentedText 0 v h [] Token.endsWord_nil
    simpa [Token.read?, Token.readFrom?] using hspells
  have hrun := run?_tokens false [] [] (Nat.zero_le _) v
  rw [parse?, renderIndented, String.toList_ofList, hread, Option.bind_some, ofTokens?]
  rw [List.append_nil, List.length_nil, Nat.zero_add] at hrun
  rw [hrun]
  by_cases hdepth : v.depth ≤ nestingLimit
  · rw [if_pos hdepth, if_pos hdepth]
    rfl
  · rw [if_neg hdepth, if_neg hdepth]

end Json
end Reconcile
