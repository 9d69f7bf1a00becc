import Reconcile.Proofs.Text.Blank
import Reconcile.Proofs.Text.Split
/-!
Names in text.  A canonical name stands among others as it stands alone if its points and question
marks are quoted and its quotations are closed.  Main statements: `isGuarded_canonicalForm` and
`endsQuoted_canonicalForm`, canonical form takes nothing out of quotation, and
`IsWellFormed.isGuarded`, which names are guarded whatever they hold.
-/

namespace Reconcile

namespace Text

variable {sep : Char} {quoted : Bool} {s : List Char}

theorem quotation_not_mem_of_blank (h : ∀ c ∈ s, isBlank c) : '"' ∉ s :=
  fun hmem => absurd (h _ hmem) (by decide)

theorem endsQuoted_trim (quoted : Bool) (s : List Char) :
    endsQuoted quoted (trim s) = endsQuoted quoted s := by
  obtain ⟨a, b, hs, ha, hb⟩ := exists_trim s
  conv_rhs => rw [hs]
  rw [endsQuoted_append, endsQuoted_append,
    endsQuoted_of_not_mem (quotation_not_mem_of_blank ha),
    endsQuoted_of_not_mem (quotation_not_mem_of_blank hb)]

theorem isGuarded_trim (h : isGuarded sep quoted s) : isGuarded sep quoted (trim s) := by
  obtain ⟨a, b, hs, ha, -⟩ := exists_trim s
  rw [hs, isGuarded_append, isGuarded_append,
    endsQuoted_of_not_mem (quotation_not_mem_of_blank ha), Bool.and_eq_true, Bool.and_eq_true] at h
  exact h.2.1

end Text

namespace Identifier

open Text

variable {sep : Char} {s raw : List Char}

/-! ## Quoted text -/

/-- Doubled quotes leave a quotation open, and open between them there is nothing. -/
theorem quoted_doubleQuotes (s : List Char) : endsQuoted true (doubleQuotes s) = true ∧
    ∀ sep, sep ≠ '"' → isGuarded sep true (doubleQuotes s) := by
  induction s with
  | nil => exact ⟨rfl, fun _ _ => rfl⟩
  | cons c s ih =>
    obtain ⟨hend, hguarded⟩ := ih
    have hcons : doubleQuotes (c :: s) = (if c = '"' then [c, c] else [c]) ++ doubleQuotes s :=
      List.flatMap_cons
    have hhead : endsQuoted true (if c = '"' then [c, c] else [c]) = true := by
      split
      next hc =>
        subst hc
        rfl
      next hc => exact quotedAfter_of_ne hc
    refine ⟨by rw [hcons, endsQuoted_append, hhead, hend], fun sep hsep => ?_⟩
    rw [hcons, isGuarded_append, hhead, hguarded sep hsep, Bool.and_true]
    split
    next hc =>
      subst hc
      simp [isGuarded, hsep.symm]
    · simp [isGuarded]

theorem isGuarded_quote (s : List Char) (hsep : sep ≠ '"') : isGuarded sep false (quote s) := by
  obtain ⟨-, hguarded⟩ := quoted_doubleQuotes s
  refine isGuarded_cons_iff.mpr ⟨by simp [hsep.symm], ?_⟩
  show isGuarded sep true (doubleQuotes s ++ ['"'])
  rw [isGuarded_append, hguarded sep hsep]
  simp [isGuarded, hsep.symm]

theorem endsQuoted_quote (s : List Char) : endsQuoted false (quote s) = false := by
  show endsQuoted true (doubleQuotes s ++ ['"']) = false
  rw [endsQuoted_append, (quoted_doubleQuotes s).1]
  rfl

/-! ## Canonical forms -/

/-- A canonical form is quoted text as it was given, a plain name, or text put in quotes. -/
theorem canonicalForm_cases (raw : List Char) :
    (isQuoted (trim raw) ∧ canonicalForm raw = trim raw) ∨ isPlain (canonicalForm raw) ∨
      canonicalForm raw = quote (trim raw) := by
  rw [canonicalForm]
  split
  next hquoted => exact .inl ⟨hquoted, rfl⟩
  · split
    next hplain => exact .inr (.inl (isPlain_map_upper hplain))
    · exact .inr (.inr rfl)

theorem not_mem_of_isPlain {c : Char} (h : isPlain s) (hc : isPart c = false) : c ∉ s :=
  fun hmem => Bool.false_ne_true (hc.symm.trans (all_isPart_of_isPlain h c hmem))

theorem isGuarded_canonicalForm (hpart : isPart sep = false) (hsep : sep ≠ '"')
    (h : isGuarded sep false raw) : isGuarded sep false (canonicalForm raw) := by
  rcases canonicalForm_cases raw with ⟨-, hform⟩ | hplain | hform
  · rw [hform]
    exact isGuarded_trim h
  · exact isGuarded_of_not_mem (not_mem_of_isPlain hplain hpart)
  · rw [hform]
    exact isGuarded_quote _ hsep

theorem endsQuoted_of_isPlain (h : isPlain s) : endsQuoted false s = false :=
  endsQuoted_of_not_mem (not_mem_of_isPlain h (by decide))

theorem endsQuoted_canonicalForm (h : endsQuoted false raw = false) :
    endsQuoted false (canonicalForm raw) = false := by
  rcases canonicalForm_cases raw with ⟨-, hform⟩ | hplain | hform
  · rw [hform, endsQuoted_trim, h]
  · exact endsQuoted_of_isPlain hplain
  · rw [hform]
    exact endsQuoted_quote _

theorem canonicalForm_ne_nil (raw : List Char) : canonicalForm raw ≠ [] := by
  intro hnil
  rcases canonicalForm_cases raw with ⟨hquoted, hform⟩ | hplain | hform
  · rw [← hform, hnil] at hquoted
    cases hquoted
  · rw [hnil] at hplain
    cases hplain
  · rw [hnil] at hform
    cases hform

/-! ## Names -/

variable {a : Identifier}

/-- No point and no question mark of the name stands outside quotation. -/
structure IsGuarded (a : Identifier) : Prop where
  point : isGuarded '.' false a.text.toList
  mark : isGuarded '?' false a.text.toList

/-- The name closes the quotations that it opens. -/
def IsClosed (a : Identifier) : Prop := endsQuoted false a.text.toList = false

instance (a : Identifier) : Decidable a.IsGuarded :=
  decidable_of_iff (isGuarded '.' false a.text.toList ∧ isGuarded '?' false a.text.toList)
    ⟨fun h => ⟨h.1, h.2⟩, fun h => ⟨h.point, h.mark⟩⟩

instance (a : Identifier) : Decidable a.IsClosed :=
  inferInstanceAs (Decidable (endsQuoted false a.text.toList = false))

theorem text_ne_empty (a : Identifier) : a.text.toList ≠ [] := by
  rw [← a.canonical]
  exact canonicalForm_ne_nil _

theorem isGuarded_ofText (hpoint : isGuarded '.' false raw) (hmark : isGuarded '?' false raw) :
    (ofText (String.ofList raw)).IsGuarded where
  point := by
    rw [toList_ofText, String.toList_ofList]
    exact isGuarded_canonicalForm (by decide) (by decide) hpoint
  mark := by
    rw [toList_ofText, String.toList_ofList]
    exact isGuarded_canonicalForm (by decide) (by decide) hmark

theorem isClosed_ofText (h : endsQuoted false raw = false) :
    (ofText (String.ofList raw)).IsClosed := by
  rw [IsClosed, toList_ofText, String.toList_ofList]
  exact endsQuoted_canonicalForm h

theorem isPlain_or_exists_cons (a : Identifier) :
    isPlain a.text.toList ∨ ∃ rest, a.text.toList = '"' :: rest := by
  rw [← a.canonical]
  rcases canonicalForm_cases a.text.toList with ⟨hquoted, hform⟩ | hplain | hform
  · obtain ⟨inner, hinner⟩ := isQuoted_iff.mp hquoted
    exact .inr ⟨_, hform.trans hinner⟩
  · exact .inl hplain
  · exact .inr ⟨_, hform⟩

/-- If the raw name, blanks at its ends aside, stands in quotes, the quotes in it are doubled. -/
def IsWellFormed (raw : String) : Prop :=
  isQuoted (trim raw.toList) → ∃ inner, trim raw.toList = quote inner

theorem IsWellFormed.cases {raw : String} (h : IsWellFormed raw) :
    isPlain (ofText raw).text.toList ∨ ∃ inner, (ofText raw).text.toList = quote inner := by
  rw [toList_ofText]
  rcases canonicalForm_cases raw.toList with ⟨hquoted, hform⟩ | hplain | hform
  · obtain ⟨inner, hinner⟩ := h hquoted
    exact .inr ⟨inner, hform.trans hinner⟩
  · exact .inl hplain
  · exact .inr ⟨_, hform⟩

theorem IsWellFormed.isGuarded {raw : String} (h : IsWellFormed raw) : (ofText raw).IsGuarded := by
  rcases h.cases with hplain | ⟨inner, hinner⟩
  · exact ⟨isGuarded_of_not_mem (not_mem_of_isPlain hplain (by decide)),
      isGuarded_of_not_mem (not_mem_of_isPlain hplain (by decide))⟩
  · exact ⟨hinner ▸ isGuarded_quote inner (by decide), hinner ▸ isGuarded_quote inner (by decide)⟩

theorem IsWellFormed.isClosed {raw : String} (h : IsWellFormed raw) : (ofText raw).IsClosed := by
  rcases h.cases with hplain | ⟨inner, hinner⟩
  · exact endsQuoted_of_isPlain hplain
  · rw [IsClosed, hinner]
    exact endsQuoted_quote inner

end Identifier
end Reconcile
