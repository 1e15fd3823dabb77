import Mathlib.Data.List.Basic

/-!
# Digits

Numbers written in decimal, some of them with leading zeros up to a width
(`padded`), and read back (`readNat`, `readInt`, `readFixed`); hexadecimal digits.
-/

namespace RoqHtx.Digits

/-! ## Characters -/

theorem toNat_alphanum {c : Char} (h : c.isAlphanum = true) : 48 ≤ c.toNat ∧ c.toNat ≤ 122 := by
  have hrange : ∀ {first last : UInt32}, 48 ≤ first.toNat → last.toNat ≤ 122 →
      first ≤ c.val → c.val ≤ last → 48 ≤ c.toNat ∧ c.toNat ≤ 122 :=
    fun hfirst hlast hle hge => ⟨Nat.le_trans hfirst (UInt32.le_iff_toNat_le.mp hle),
      Nat.le_trans (UInt32.le_iff_toNat_le.mp hge) hlast⟩
  rcases (Bool.or_eq_true _ _).mp h with halpha | hdigit
  · rcases (Bool.or_eq_true _ _).mp halpha with hupper | hlower
    · have hupper := of_decide_eq_true hupper
      exact hrange (by decide) (by decide) hupper.1 hupper.2
    · have hlower := (Bool.and_eq_true _ _).mp hlower
      exact hrange (by decide) (by decide) (of_decide_eq_true hlower.1) (of_decide_eq_true hlower.2)
  · have hdigit := (Bool.and_eq_true _ _).mp hdigit
    exact hrange (by decide) (by decide) (of_decide_eq_true hdigit.1) (of_decide_eq_true hdigit.2)

/-! ## Writing -/

/-- A number, with leading zeros up to a width. -/
def padded (width n : Nat) : List Char :=
  List.replicate (width - (Nat.toDigits 10 n).length) '0' ++ Nat.toDigits 10 n

/-! ## Reading -/

def readNat (s : List Char) : Option Nat :=
  if s ≠ [] ∧ s.all Char.isDigit = true then some (Nat.ofDigitChars 10 s 0) else none

def readInt : List Char → Option Int
  | '-' :: s => (readNat s).map fun n : Nat => -(n : Int)
  | s => (readNat s).map fun n : Nat => (n : Int)

/-- So many digits, and what follows them. -/
def readFixed (width : Nat) (s : List Char) : Option (Nat × List Char) :=
  if (s.take width).length = width then (readNat (s.take width)).map fun n => (n, s.drop width)
  else none

/-! ## Round trips -/

theorem isDigit_toDigits {n : Nat} {c : Char} (h : c ∈ Nat.toDigits 10 n) : c.isDigit = true :=
  Nat.isDigit_of_mem_toDigits (by decide) (by decide) h

theorem toDigits_ne_nil (n : Nat) : Nat.toDigits 10 n ≠ [] :=
  List.ne_nil_of_length_pos Nat.length_toDigits_pos

/-- No number but zero begins with a zero. -/
theorem toDigits_eq_cons {n : Nat} (hn : 0 < n) : ∃ c s, Nat.toDigits 10 n = c :: s ∧ c ≠ '0' := by
  induction n using Nat.strongRecOn with
  | ind n ih =>
    by_cases hlt : n < 10
    · rw [Nat.toDigits_of_lt_base hlt]
      have hchar : ∀ d < 10, 0 < d → d.digitChar ≠ '0' := by decide
      exact ⟨_, [], rfl, hchar n hlt hn⟩
    · rw [Nat.toDigits_of_base_le (by decide) (Nat.not_lt.mp hlt)]
      obtain ⟨c, s, hs, hc⟩ := ih (n / 10) (by omega) (by omega)
      exact ⟨c, s ++ [(n % 10).digitChar], by rw [hs]; rfl, hc⟩

theorem readNat_toDigits (n : Nat) : readNat (Nat.toDigits 10 n) = some n := by
  rw [readNat, if_pos ⟨toDigits_ne_nil n, List.all_eq_true.mpr fun _ => isDigit_toDigits⟩,
    Nat.ofDigitChars_ten_toDigits]

theorem isDigit_padded {width n : Nat} {c : Char} (h : c ∈ padded width n) : c.isDigit = true := by
  rcases List.mem_append.mp h with h | h
  · rw [List.eq_of_mem_replicate h]
    rfl
  · exact isDigit_toDigits h

theorem readNat_padded (width n : Nat) : readNat (padded width n) = some n := by
  have hne : padded width n ≠ [] := List.append_ne_nil_of_right_ne_nil _ (toDigits_ne_nil n)
  rw [readNat, if_pos ⟨hne, List.all_eq_true.mpr fun _ => isDigit_padded⟩, padded, Nat.ofDigitChars_append,
    Nat.ofDigitChars_replicate_zero, Nat.mul_zero, Nat.ofDigitChars_ten_toDigits]

theorem length_padded {width n : Nat} (h : (Nat.toDigits 10 n).length ≤ width) :
    (padded width n).length = width := by
  rw [padded, List.length_append, List.length_replicate]
  omega

theorem length_padded_two {n : Nat} (h : n < 100) : (padded 2 n).length = 2 :=
  length_padded ((Nat.length_toDigits_le_iff (by decide) (by decide)).mpr h)

theorem length_padded_four {n : Nat} (h : n < 10000) : (padded 4 n).length = 4 :=
  length_padded ((Nat.length_toDigits_le_iff (by decide) (by decide)).mpr h)

theorem readFixed_padded {width n : Nat} (h : (padded width n).length = width) (rest : List Char) :
    readFixed width (padded width n ++ rest) = some (n, rest) := by
  have htake : (padded width n ++ rest).take width = padded width n := List.take_left' h
  rw [readFixed, htake, if_pos h, readNat_padded, List.drop_left' h]
  rfl

theorem toList_toString (n : Int) :
    (toString n).toList = if 0 ≤ n then Nat.toDigits 10 n.toNat
      else '-' :: Nat.toDigits 10 (-n).toNat := by
  rw [Int.toString_eq_repr, Int.repr_eq_if]
  split
  · exact Nat.toList_repr
  · rw [String.toList_append, Nat.toList_repr]
    rfl

theorem readInt_toString (n : Int) : readInt (toString n).toList = some n := by
  rw [toList_toString]
  split
  · rename_i h
    have hdigits : readInt (Nat.toDigits 10 n.toNat) =
        (readNat (Nat.toDigits 10 n.toNat)).map fun n : Nat => (n : Int) := by
      unfold readInt
      split
      · rename_i heq
        have : '-' ∈ Nat.toDigits 10 n.toNat := heq ▸ List.mem_cons_self
        cases isDigit_toDigits this
      · rfl
    rw [hdigits, readNat_toDigits, Option.map_some, Int.toNat_of_nonneg h]
  · rw [readInt, readNat_toDigits, Option.map_some, Int.toNat_of_nonneg (by omega), Int.neg_neg]

/-! ## Hexadecimal digits -/

def hexDigit (n : Nat) : Char := (Nat.digitChar n).toUpper

def hexDigit? (c : Char) : Option Nat :=
  if '0' ≤ c ∧ c ≤ '9' then some (c.toNat - 48)
  else if 'a' ≤ c ∧ c ≤ 'f' then some (c.toNat - 87)
  else if 'A' ≤ c ∧ c ≤ 'F' then some (c.toNat - 55)
  else none

theorem hexDigit?_hexDigit : ∀ n < 16, hexDigit? (hexDigit n) = some n := by decide

end RoqHtx.Digits
