import Mathlib.Data.List.Basic
import Reconcile.Text.Percent
/-!
Percent-encoding loses nothing.  Main statements: `decode?_encode`, reading undoes writing, and
`eq_or_isUnreserved_of_mem_encode`, what encoded text is made of.
-/

namespace Reconcile
namespace Text
namespace Percent

/-! ## Bytes -/

theorem hexValue?_hexDigit {n : Nat} (h : n < 16) : hexValue? (hexDigit n) = some n := by
  have hall : ∀ m : Fin 16, hexValue? (hexDigit m) = some m.val := by decide
  exact hall ⟨n, h⟩

theorem isUnreserved_hexDigit {n : Nat} (h : n < 16) : isUnreserved (hexDigit n) := by
  have hall : ∀ m : Fin 16, isUnreserved (hexDigit m) := by decide
  exact hall ⟨n, h⟩

theorem decodeAfter_encodeByte (pending : List UInt8) (b : UInt8) (rest : List Char) :
    decodeAfter pending (encodeByte b ++ rest) = decodeAfter (pending ++ [b]) rest := by
  have hb : b.toNat < 256 := b.toNat_lt
  have hhigh := hexValue?_hexDigit (n := b.toNat / 16) (by omega)
  have hlow := hexValue?_hexDigit (n := b.toNat % 16) (by omega)
  show decodeAfter pending ('%' :: hexDigit (b.toNat / 16) :: hexDigit (b.toNat % 16) :: rest) = _
  rw [decodeAfter, hhigh, hlow]
  have hnat : b.toNat / 16 * 16 + b.toNat % 16 = b.toNat := by omega
  simp only [hnat, UInt8.ofNat_toNat]

theorem decodeAfter_encodeBytes (bytes pending : List UInt8) (rest : List Char) :
    decodeAfter pending (bytes.flatMap encodeByte ++ rest) =
      decodeAfter (pending ++ bytes) rest := by
  induction bytes generalizing pending with
  | nil => simp
  | cons b bytes ih =>
    rw [List.flatMap_cons, List.append_assoc, decodeAfter_encodeByte, ih, List.append_assoc]
    rfl

theorem charsOfBytes?_utf8 (cs : List Char) :
    charsOfBytes? (cs.flatMap String.utf8EncodeChar) = some cs := by
  cases cs with
  | nil => rfl
  | cons c cs =>
    have hne : ((c :: cs).flatMap String.utf8EncodeChar).isEmpty = false := by
      have hpos := length_le_length_bytes (c :: cs)
      rw [List.isEmpty_eq_false_iff, ne_eq, ← List.length_eq_zero_iff]
      simp only [List.length_cons] at hpos
      omega
    have hread := List.utf8Decode?_utf8Encode (l := c :: cs)
    rw [List.utf8Encode] at hread
    have hbytes : ByteArray.mk ((c :: cs).flatMap String.utf8EncodeChar).toArray =
        ((c :: cs).flatMap String.utf8EncodeChar).toByteArray := by
      ext1
      simp
    rw [charsOfBytes?, hne, if_neg Bool.false_ne_true, hbytes, hread]
    rfl

/-! ## Texts -/

/-- Characters part way through a run of escapes are put before what follows it. -/
theorem decodeAfter_encode (before s : List Char) :
    decodeAfter (before.flatMap String.utf8EncodeChar) (encode s) = some (before ++ s) := by
  induction s generalizing before with
  | nil =>
    show charsOfBytes? _ = _
    rw [charsOfBytes?_utf8, List.append_nil]
  | cons c s ih =>
    have hs := ih []
    rw [encode, List.flatMap_cons, encodeChar]
    split
    next hkept =>
      -- A character that stands for itself is no percent sign, so it ends the run.
      have hc : c ≠ '%' := by
        rintro rfl
        revert hkept
        decide
      show decodeAfter _ (c :: encode s) = _
      rw [decodeAfter, charsOfBytes?_utf8]
      · show (decodeAfter [] (encode s)).bind _ = _
        rw [show decodeAfter [] (encode s) = some s from hs]
        rfl
      · exact fun _ _ _ heq => absurd heq hc
    · rw [decodeAfter_encodeBytes]
      have hrun : before.flatMap String.utf8EncodeChar ++ String.utf8EncodeChar c =
          (before ++ [c]).flatMap String.utf8EncodeChar := by simp
      show decodeAfter (before.flatMap String.utf8EncodeChar ++ String.utf8EncodeChar c)
          (encode s) = _
      rw [hrun, ih (before ++ [c]), List.append_assoc]
      rfl

theorem decode?_encode (s : List Char) : decode? (encode s) = some s := decodeAfter_encode [] s

theorem eq_or_isUnreserved_of_mem_encode {c : Char} {s : List Char} (h : c ∈ encode s) :
    c = '%' ∨ isUnreserved c := by
  obtain ⟨d, -, hc⟩ := List.mem_flatMap.mp h
  rw [encodeChar] at hc
  split at hc
  next hd =>
    rw [List.mem_singleton.mp hc]
    exact .inr hd
  · obtain ⟨b, -, hc⟩ := List.mem_flatMap.mp hc
    have hb : b.toNat < 256 := b.toNat_lt
    simp only [encodeByte, List.mem_cons, List.not_mem_nil, or_false] at hc
    rcases hc with rfl | rfl | rfl
    · exact .inl rfl
    · exact .inr (isUnreserved_hexDigit (by omega))
    · exact .inr (isUnreserved_hexDigit (by omega))

end Percent
end Text
end Reconcile
