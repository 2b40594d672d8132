/-! # Durations

A span of time in whole nanoseconds. Its text uses the largest unit of which the span holds at
least one, with the rest as a decimal fraction written in full but without trailing zeros. -/

namespace LiveChess

/-- A span of time. -/
structure Duration where
  nanos : Nat
deriving DecidableEq, Repr

namespace Duration

/-- A span of whole milliseconds. -/
def ofMillis (n : Nat) : Duration := ⟨n * 1000000⟩

/-- The last `k` decimal digits of a number, without trailing zeros. -/
def fractionDigits (k n : Nat) : List Char :=
  let digits := (List.range k).map fun i => Char.ofNat (48 + n / Nat.pow 10 (k - 1 - i) % 10)
  (digits.reverse.dropWhile fun c => decide (c = '0')).reverse

/-- A number of units of `10 ^ k` nanoseconds. -/
def inUnits (d : Duration) (k : Nat) (unit : String) : String :=
  let fraction := fractionDigits k d.nanos
  toString (d.nanos / Nat.pow 10 k) ++
    (if fraction.isEmpty then "" else "." ++ String.ofList fraction) ++ unit

/-- The text of a span of time. -/
def text (d : Duration) : String :=
  if Nat.pow 10 9 ≤ d.nanos then d.inUnits 9 "s"
  else if Nat.pow 10 6 ≤ d.nanos then d.inUnits 6 "ms"
  else if Nat.pow 10 3 ≤ d.nanos then d.inUnits 3 "µs"
  else d.inUnits 0 "ns"

end Duration
end LiveChess
