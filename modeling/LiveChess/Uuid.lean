import LiveChess.Text.Hex

/-! # 128-bit names

The text of a name is thirty-two lower-case hex digits in groups of 8, 4, 4, 4 and 12 with hyphens
between; reading also takes capital digits, the digits without hyphens, and the hyphenated form in
braces or after `urn:uuid:`. -/

namespace LiveChess

/-- A 128-bit number used as a name. -/
structure Uuid where
  bits : BitVec 128
deriving DecidableEq, Repr

namespace Uuid

/-- The number zero. -/
def nil : Uuid := ⟨0⟩

/-- The last `k` hex digits of a number. -/
def hexDigits : Nat → Nat → List Char
  | 0, _ => []
  | k + 1, n => hexDigits k (n / 16) ++ [Text.hexDigit (n % 16)]

/-- Read exactly `k` hex digits on top of a number. -/
def readHex : Nat → Nat → List Char → Option (Nat × List Char)
  | 0, acc, cs => some (acc, cs)
  | _ + 1, _, [] => none
  | k + 1, acc, c :: cs =>
    match Text.hexValue? c with
    | some d => readHex k (16 * acc + d) cs
    | none => none

/-- Read groups of hex digits of the given lengths, hyphens between them and nothing after. -/
def readGroups : List Nat → Nat → List Char → Option Nat
  | [], acc, [] => some acc
  | [], _, _ :: _ => none
  | k :: ks, acc, cs =>
    match readHex k acc cs with
    | none => none
    | some (acc, rest) =>
      match ks, rest with
      | [], rest => readGroups [] acc rest
      | ks, '-' :: rest => readGroups ks acc rest
      | _, _ => none

/-- The lengths of the groups between hyphens. -/
def groups : List Nat := [8, 4, 4, 4, 12]

/-- The text of an identifier. -/
def text (u : Uuid) : String :=
  let n := u.bits.toNat
  String.ofList <|
    hexDigits 8 (n / Nat.pow 16 24) ++ '-' :: hexDigits 4 (n / Nat.pow 16 20) ++
      '-' :: hexDigits 4 (n / Nat.pow 16 16) ++ '-' :: hexDigits 4 (n / Nat.pow 16 12) ++
      '-' :: hexDigits 12 n

/-- The number of hyphenated digits. -/
def ofHyphenated? (cs : List Char) : Option Uuid :=
  (readGroups groups 0 cs).map fun n => ⟨BitVec.ofNat 128 n⟩

/-- The number of plain digits. -/
def ofPlain? (cs : List Char) : Option Uuid :=
  (readGroups [32] 0 cs).map fun n => ⟨BitVec.ofNat 128 n⟩

/-- The identifier of a text, in any of its four forms. -/
def ofText? (text : String) : Option Uuid :=
  let cs := text.toList
  if cs.length = 32 then ofPlain? cs
  else if cs.length = 36 then ofHyphenated? cs
  else if cs.length = 38 ∧ cs.head? = some '{' ∧ cs.getLast? = some '}' then
    ofHyphenated? cs.tail.dropLast
  else if cs.length = 45 ∧ (cs.take 9).map Char.toLower = "urn:uuid:".toList then
    ofHyphenated? (cs.drop 9)
  else
    none

end Uuid

end LiveChess
