import Reconcile.Text.Ascii
/-!
Percent-encoding of parameter values, as it is documented for URLs.  Writing keeps ASCII letters,
digits and the unreserved `-`, `_`, `.`, `~`, and turns every other character into the bytes of its
UTF-8 form, each a percent sign with two capital hexadecimal digits.  Reading takes digits of either
case, leaves a plus sign and a percent sign without two digits after it as they are, and fails where
a run of escapes is not UTF-8.  Main statement: `length_decode?`, reading makes nothing longer.
-/

namespace Reconcile
namespace Text
namespace Percent

/-- Characters that stand for themselves in encoded text. -/
def isUnreserved (c : Char) : Bool :=
  isLetter c || isDigit c || c == '-' || c == '_' || c == '.' || c == '~'

def hexDigit (n : Nat) : Char := Char.ofNat (if n < 10 then 0x30 + n else 0x41 + (n - 10))

def encodeByte (b : UInt8) : List Char := ['%', hexDigit (b.toNat / 16), hexDigit (b.toNat % 16)]

def encodeChar (c : Char) : List Char :=
  if isUnreserved c then [c] else (String.utf8EncodeChar c).flatMap encodeByte

def encode (s : List Char) : List Char := s.flatMap encodeChar

def charsOfBytes? (bytes : List UInt8) : Option (List Char) :=
  if bytes.isEmpty then some []
  else (ByteArray.utf8Decode? ⟨bytes.toArray⟩).map (·.toList)

/-- Read on after the escaped bytes `pending`; a run of escapes has to spell whole characters. -/
def decodeAfter (pending : List UInt8) : List Char → Option (List Char)
  | [] => charsOfBytes? pending
  | '%' :: a :: b :: rest =>
    match hexValue? a, hexValue? b with
    | some m, some n => decodeAfter (pending ++ [UInt8.ofNat (m * 16 + n)]) rest
    | _, _ => do return (← charsOfBytes? pending) ++ '%' :: (← decodeAfter [] (a :: b :: rest))
  | c :: rest => do return (← charsOfBytes? pending) ++ c :: (← decodeAfter [] rest)

/-- The text that `s` encodes; none if its escapes are not UTF-8. -/
def decode? (s : List Char) : Option (List Char) := decodeAfter [] s

theorem decode?_of_not_mem {s : List Char} (h : '%' ∉ s) : decode? s = some s := by
  unfold decode?
  induction s with
  | nil => rfl
  | cons c rest ih =>
    obtain ⟨hc, hrest⟩ := by simpa using h
    rw [decodeAfter]
    · simp [charsOfBytes?, ih hrest]
    · exact fun _ _ _ heq => absurd heq.symm hc

theorem length_le_length_bytes (cs : List Char) :
    cs.length ≤ (cs.flatMap String.utf8EncodeChar).length := by
  induction cs with
  | nil => simp
  | cons c cs ih =>
    have : 0 < (String.utf8EncodeChar c).length := by
      rw [String.length_utf8EncodeChar]; exact c.utf8Size_pos
    simp only [List.length_cons, List.flatMap_cons, List.length_append]
    omega

theorem length_charsOfBytes? {bytes : List UInt8} {cs : List Char}
    (h : charsOfBytes? bytes = some cs) : cs.length ≤ bytes.length := by
  rw [charsOfBytes?] at h
  split at h
  · obtain rfl := Option.some.inj h
    simp
  · obtain ⟨chars, hchars, rfl⟩ := Option.map_eq_some_iff.mp h
    have hb := ByteArray.utf8Encode_get_utf8Decode? (b := ⟨bytes.toArray⟩) (h := by simp [hchars])
    have hs := congrArg ByteArray.size hb
    have hl := length_le_length_bytes chars.toList
    simp only [hchars, Option.get_some, List.utf8Encode, List.size_toByteArray] at hs
    have : (ByteArray.mk bytes.toArray).size = bytes.length := by simp [ByteArray.size]
    omega

theorem length_decodeAfter {pending : List UInt8} {s t : List Char}
    (h : decodeAfter pending s = some t) : t.length ≤ pending.length + s.length := by
  fun_induction decodeAfter pending s generalizing t with
  | case1 pending => simpa using length_charsOfBytes? h
  | case2 pending a b rest m n hm hn ih =>
    have := ih h
    simp only [List.length_append, List.length_cons, List.length_nil] at this ⊢
    omega
  | case3 pending a b rest x ih =>
    simp only [Option.bind_eq_bind, Option.bind_eq_some_iff, Option.pure_def] at h
    obtain ⟨u, hu, w, hw, ht⟩ := h
    obtain rfl := Option.some.inj ht
    have := length_charsOfBytes? hu
    have := ih hw
    simp only [List.length_append, List.length_cons, List.length_nil] at this ⊢
    omega
  | case4 pending c rest x ih =>
    simp only [Option.bind_eq_bind, Option.bind_eq_some_iff, Option.pure_def] at h
    obtain ⟨u, hu, w, hw, ht⟩ := h
    obtain rfl := Option.some.inj ht
    have := length_charsOfBytes? hu
    have := ih hw
    simp only [List.length_append, List.length_cons, List.length_nil] at this ⊢
    omega

theorem length_decode? {s t : List Char} (h : decode? s = some t) : t.length ≤ s.length := by
  simpa using length_decodeAfter h

end Percent
end Text
end Reconcile
