import LiveChess.Text.Hex

/-! # Percent encoding

In the target of a request a percent sign and two hex digits stand for a byte. Decoding can leave
some bytes encoded, so that a slash that was encoded does not split a path; a percent sign without
two hex digits after it stands for itself. -/

namespace LiveChess.Web.Percent

/-- The percent sign. -/
@[match_pattern] def sign : UInt8 := 37

/-- The plus sign. -/
def plus : UInt8 := 43

/-- The slash. -/
@[match_pattern] def slash : UInt8 := 47

/-- The blank. -/
def blank : UInt8 := 32

/-- The byte that two hex digits write. -/
def byte? (high low : UInt8) : Option UInt8 :=
  match Text.hexValue? (Char.ofNat high.toNat), Text.hexValue? (Char.ofNat low.toNat) with
  | some h, some l => some (16 * h + l).toUInt8
  | _, _ => none

/-- Decode all bytes but those to keep. -/
def decode (keep : UInt8 → Bool) : List UInt8 → List UInt8
  | sign :: high :: low :: r =>
    match byte? high low with
    | none => sign :: decode keep (high :: low :: r)
    | some b => if keep b then sign :: high :: low :: decode keep r else b :: decode keep r
  | b :: r => b :: decode keep r
  | [] => []

/-- Decode all bytes. -/
def decodeAll (bytes : List UInt8) : List UInt8 := decode (fun _ => false) bytes

/-- Decode a path but for the percent sign, the plus sign and the slash. -/
def decodePath (bytes : List UInt8) : List UInt8 :=
  decode (fun b => b = sign || b = plus || b = slash) bytes

/-- Decode a part of a query, where a plus sign stands for a blank. -/
def decodeQuery (bytes : List UInt8) : List UInt8 :=
  decodeAll (bytes.map fun b => if b = plus then blank else b)

end LiveChess.Web.Percent
