import Mathlib.Tactic
import LiveChess.Ident

/-! # The text of a 128-bit name

A name is read back from its text (`Uuid.ofText?_text`), and with it the names of users and of
matches.  Each group of digits adds its digits to the number that the groups before it make. -/

namespace LiveChess

namespace Uuid

theorem length_hexDigits (k n : Nat) : (hexDigits k n).length = k := by
  induction k generalizing n with
  | zero => rfl
  | succ k ih => rw [hexDigits, List.length_append, ih, List.length_singleton]

/-- The digits of a number below `16 ^ k` are read on top of what was read before. -/
theorem readHex_hexDigits (k i acc n : Nat) (rest : List Char) :
    readHex (k + i) acc (hexDigits k n ++ rest) = readHex i (16 ^ k * acc + n % 16 ^ k) rest := by
  induction k generalizing i n rest with
  | zero =>
      simp only [hexDigits, List.nil_append, Nat.zero_add, Nat.pow_zero, Nat.one_mul, Nat.mod_one,
        Nat.add_zero]
  | succ k ih =>
      have hdigit : Text.hexValue? (Text.hexDigit (n % 16)) = some (n % 16) :=
        Text.hexValue?_hexDigit (Nat.mod_lt n (by decide))
      have hvalue : 16 * (16 ^ k * acc + n / 16 % 16 ^ k) + n % 16 =
          16 ^ (k + 1) * acc + n % 16 ^ (k + 1) := by
        rw [Nat.pow_succ', Nat.mod_mul]
        ring
      calc readHex (k + 1 + i) acc (hexDigits (k + 1) n ++ rest)
          = readHex (k + (i + 1)) acc
              (hexDigits k (n / 16) ++ Text.hexDigit (n % 16) :: rest) := by
            rw [hexDigits, List.append_assoc, List.singleton_append]
            congr 1
            omega
        _ = readHex (i + 1) (16 ^ k * acc + n / 16 % 16 ^ k) (Text.hexDigit (n % 16) :: rest) :=
            ih (i + 1) (n / 16) _
        _ = readHex i (16 ^ (k + 1) * acc + n % 16 ^ (k + 1)) rest := by
            rw [readHex, hdigit]
            simp only [hvalue]

/-- A group that others follow. -/
theorem readGroups_hexDigits (k k' : Nat) (ks : List Nat) (acc n : Nat) (rest : List Char) :
    readGroups (k :: k' :: ks) acc (hexDigits k n ++ '-' :: rest) =
      readGroups (k' :: ks) (16 ^ k * acc + n % 16 ^ k) rest := by
  have hread := readHex_hexDigits k 0 acc n ('-' :: rest)
  rw [Nat.add_zero, readHex] at hread
  rw [readGroups, hread]
  rfl

/-- The last group. -/
theorem readGroups_last (k acc n : Nat) :
    readGroups [k] acc (hexDigits k n) = some (16 ^ k * acc + n % 16 ^ k) := by
  have hread := readHex_hexDigits k 0 acc n []
  rw [Nat.add_zero, List.append_nil, readHex] at hread
  rw [readGroups, hread]
  rfl

/-- The digits of the text of a name, hyphens included. -/
def digits (n : Nat) : List Char :=
  hexDigits 8 (n / 16 ^ 24) ++ '-' :: (hexDigits 4 (n / 16 ^ 20) ++
    '-' :: (hexDigits 4 (n / 16 ^ 16) ++ '-' :: (hexDigits 4 (n / 16 ^ 12) ++
      '-' :: hexDigits 12 n)))

theorem text_eq (u : Uuid) : u.text = String.ofList (digits u.bits.toNat) := by
  unfold text digits
  simp only [List.append_assoc, List.cons_append]
  rfl

theorem length_digits (n : Nat) : (digits n).length = 36 := by
  simp only [digits, List.length_append, List.length_cons, length_hexDigits]

theorem readGroups_digits {n : Nat} (hn : n < 2 ^ 128) : readGroups groups 0 (digits n) = some n := by
  rw [groups, digits, readGroups_hexDigits, readGroups_hexDigits, readGroups_hexDigits,
    readGroups_hexDigits, readGroups_last]
  congr 1
  omega

/-- A name is read back from its text. -/
theorem ofText?_text (u : Uuid) : ofText? u.text = some u := by
  rw [text_eq, ofText?, String.toList_ofList]
  have h32 : ¬(digits u.bits.toNat).length = 32 := by
    rw [length_digits]
    decide
  simp only [if_neg h32, if_pos (length_digits u.bits.toNat), ofHyphenated?,
    readGroups_digits u.bits.isLt, Option.map_some, BitVec.ofNat_toNat, BitVec.setWidth_eq]

end Uuid

theorem UserId.ofText?_text (u : UserId) : ofText? u.text = some u := by
  rw [ofText?, text, Uuid.ofText?_text]
  rfl

theorem MatchId.ofText?_text (m : MatchId) : ofText? m.text = some m := by
  rw [ofText?, text, Uuid.ofText?_text]
  rfl

end LiveChess
