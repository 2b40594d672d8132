import LiveChess.Json.Basic

/-! # The range of numbers

A number is taken as a significand and a power of ten. The significand has the leading digits as
long as they make a number of 64 bits; of the digits after them the whole ones count in the power
and the others are dropped. Significand and power are rounded to doubles one by one, and the number
is in range if the product of the two rounds to a double once more. -/

namespace LiveChess.Json.Number

/-- Significands stay below this. -/
def significandLimit : Nat := Nat.pow 2 64

/-- The leading digits that make a significand, and how many digits follow them. -/
def leading (n : Nat) : Nat × Nat :=
  if n < significandLimit then
    (n, 0)
  else
    let (significand, rest) := leading (n / 10)
    (significand, rest + 1)
termination_by n
decreasing_by
  have : 0 < significandLimit := by decide
  omega

/-- Append digits as long as the number stays a significand, and count them. -/
def append (significand : Nat) : List (Fin 10) → Nat × Nat
  | [] => (significand, 0)
  | d :: ds =>
    if 10 * significand + d.val < significandLimit then
      let (extended, places) := append (10 * significand + d.val) ds
      (extended, places + 1)
    else
      (significand, 0)

/-- The significand of a number, and the power of ten that it is counted in. -/
def scaled (n : Number) : Nat × Int :=
  let (whole, rest) := leading n.whole
  let (significand, places) := append whole n.fraction
  (significand, rest - places + n.exponent.getD 0)

/-- The binary digits of a double. -/
def precision : Nat := 53

/-- The double nearest to a whole number, as if doubles had no largest one. Of two that are equally
near it is the one with the even last digit. -/
def toDouble (n : Nat) : Nat :=
  let unit := Nat.pow 2 (n.log2 + 1 - precision)
  let below := n / unit
  let twice := 2 * (n % unit)
  if twice < unit ∨ (twice = unit ∧ below % 2 = 0) then below * unit else (below + 1) * unit

/-- Half a unit past the largest double. -/
def doubleLimit : Nat := Nat.pow 2 1024 - Nat.pow 2 970

/-- The greatest power of ten below the largest double. -/
def greatestScale : Int := 308

/-- A number whose significand times its power of ten is a double, once rounded. -/
def inRange (n : Number) : Bool :=
  let (significand, scale) := n.scaled
  if significand = 0 ∨ scale ≤ 0 then true
  else if greatestScale < scale then false
  else decide (toDouble significand * toDouble (Nat.pow 10 scale.toNat) < doubleLimit)

end LiveChess.Json.Number
