import RoqHtx.Framework.Digits

/-!
# Percent-encoding

A text with every character but the unreserved ones as `%` and two hexadecimal
digits (`encode`), and the text that such a text stands for (`decode`).
-/

namespace RoqHtx.Percent

open RoqHtx.Digits (hexDigit hexDigit?)

def isUnreserved (c : Char) : Bool := c.isAlphanum || c = '-' || c = '.' || c = '_' || c = '~'

def encodeChar (c : Char) : List Char :=
  if isUnreserved c then [c] else ['%', hexDigit (c.toNat / 16), hexDigit (c.toNat % 16)]

def encode (s : List Char) : List Char := s.flatMap encodeChar

def decode : List Char → Option (List Char)
  | [] => some []
  | '%' :: a :: b :: s => do
    let a ← hexDigit? a
    let b ← hexDigit? b
    (decode s).map (Char.ofNat (a * 16 + b) :: ·)
  | c :: s => if c = '%' then none else (decode s).map (c :: ·)

theorem encode_append (s t : List Char) : encode (s ++ t) = encode s ++ encode t :=
  List.flatMap_append

theorem encode_cons (c : Char) (s : List Char) : encode (c :: s) = encodeChar c ++ encode s := rfl

/-- What is unreserved stands for itself. -/
theorem encode_unreserved {s : List Char} (h : ∀ c ∈ s, isUnreserved c = true) : encode s = s := by
  induction s with
  | nil => rfl
  | cons c s ih =>
    rw [encode_cons, encodeChar, if_pos (h c List.mem_cons_self),
      ih fun d hd => h d (List.mem_cons_of_mem c hd)]
    rfl

theorem decode_cons {c : Char} (h : c ≠ '%') (s : List Char) :
    decode (c :: s) = (decode s).map (c :: ·) := by
  rw [decode.eq_def]
  split <;> simp_all

theorem decode_encodeChar {c : Char} (h : c.toNat < 256) (s : List Char) :
    decode (encodeChar c ++ s) = (decode s).map (c :: ·) := by
  rw [encodeChar]
  split
  · rename_i hunreserved
    exact decode_cons (by rintro rfl; cases hunreserved) s
  · show decode ('%' :: hexDigit (c.toNat / 16) :: hexDigit (c.toNat % 16) :: s) = _
    rw [decode, Digits.hexDigit?_hexDigit _ (by omega), Digits.hexDigit?_hexDigit _ (by omega)]
    show (decode s).map (Char.ofNat (c.toNat / 16 * 16 + c.toNat % 16) :: ·) = _
    rw [Nat.div_add_mod', Char.ofNat_toNat]

/-- The text that was encoded is what is decoded. -/
theorem decode_encode {s : List Char} (h : ∀ c ∈ s, c.toNat < 256) : decode (encode s) = some s := by
  induction s with
  | nil => rfl
  | cons c s ih =>
    rw [encode_cons, decode_encodeChar (h c List.mem_cons_self),
      ih fun d hd => h d (List.mem_cons_of_mem c hd)]
    rfl

theorem isUnreserved_hexDigit : ∀ n < 16, isUnreserved (hexDigit n) = true := by decide

/-- What is encoded has no reserved characters. -/
theorem mem_encode {s : List Char} (h : ∀ c ∈ s, c.toNat < 256) {c : Char} (hc : c ∈ encode s) :
    isUnreserved c = true ∨ c = '%' := by
  obtain ⟨d, hd, hc⟩ := List.mem_flatMap.mp hc
  have hlt := h d hd
  rw [encodeChar] at hc
  split at hc
  · obtain rfl := List.mem_singleton.mp hc
    exact .inl ‹_›
  · simp only [List.mem_cons, List.not_mem_nil, or_false] at hc
    rcases hc with rfl | rfl | rfl
    · exact .inr rfl
    · exact .inl (isUnreserved_hexDigit _ (by omega))
    · exact .inl (isUnreserved_hexDigit _ (by omega))

end RoqHtx.Percent
