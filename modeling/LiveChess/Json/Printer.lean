import LiveChess.Json.Basic
import LiveChess.Text.Hex

/-! # Writing JSON

Values are written without blanks. In strings the quote, the backslash and the control characters
are escaped and everything else stands as it is. -/

namespace LiveChess.Json

/-- How a character stands in a string. -/
def escape (c : Char) : List Char :=
  if c = '"' then ['\\', '"']
  else if c = '\\' then ['\\', '\\']
  else if c = '\n' then ['\\', 'n']
  else if c = '\r' then ['\\', 'r']
  else if c = '\t' then ['\\', 't']
  else if c.toNat = 8 then ['\\', 'b']
  else if c.toNat = 12 then ['\\', 'f']
  else if c.toNat < 32 then
    ['\\', 'u', '0', '0', Text.hexDigit (c.toNat / 16),
      Text.hexDigit (c.toNat % 16)]
  else [c]

/-- A string in quotes. -/
def printString (s : String) : List Char := '"' :: (s.toList.flatMap escape ++ ['"'])

/-- A power of ten. -/
def printExponent : Int → List Char
  | .ofNat n => 'e' :: Nat.toDigits 10 n
  | .negSucc n => 'e' :: '-' :: Nat.toDigits 10 (n + 1)

/-- A number. -/
def printNumber (n : Number) : List Char :=
  (if n.negative then ['-'] else []) ++ Nat.toDigits 10 n.whole ++
    (if n.fraction = [] then [] else '.' :: n.fraction.map fun d => Char.ofNat (48 + d.val)) ++
    (match n.exponent with
      | none => []
      | some e => printExponent e)

mutual

/-- The text of a value. -/
def print : Json → List Char
  | .null => ['n', 'u', 'l', 'l']
  | .bool true => ['t', 'r', 'u', 'e']
  | .bool false => ['f', 'a', 'l', 's', 'e']
  | .num n => printNumber n
  | .str s => printString s
  | .arr items => '[' :: (printItems items ++ [']'])
  | .obj members => '{' :: (printMembers members ++ ['}'])
  | .unreadable => ['n', 'u', 'l', 'l']

/-- The items of an array, with commas between. -/
def printItems : List Json → List Char
  | [] => []
  | [j] => print j
  | j :: k :: js => print j ++ ',' :: printItems (k :: js)

/-- The members of an object, with commas between. -/
def printMembers : List (String × Json) → List Char
  | [] => []
  | [(s, j)] => printString s ++ ':' :: print j
  | (s, j) :: m :: ms => printString s ++ ':' :: (print j ++ ',' :: printMembers (m :: ms))

end

/-- The text of a value. -/
def text (j : Json) : String := String.ofList j.print

end LiveChess.Json
