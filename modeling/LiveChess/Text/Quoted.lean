import LiveChess.Text.Shapeless

/-! # Quoted text

A text is quoted between double quotes. The quote and the backslash get a backslash before them,
tab, line feed, carriage return and NUL their letters, and every other character without a shape of
its own its code in hex. -/

namespace LiveChess.Text

/-- The code of a character in braces, in lower-case hex without padding. -/
def codeEscape (c : Char) : List Char :=
  ['\\', 'u', '{'] ++ Nat.toDigits 16 c.toNat ++ ['}']

/-- How one character stands in a quoted text. -/
def quoteChar (c : Char) : List Char :=
  if c = '\t' then ['\\', 't']
  else if c = '\n' then ['\\', 'n']
  else if c = '\r' then ['\\', 'r']
  else if c = Char.ofNat 0 then ['\\', '0']
  else if c = '"' then ['\\', '"']
  else if c = '\\' then ['\\', '\\']
  else if isShapeless c then codeEscape c
  else [c]

/-- A text between double quotes. -/
def quoted (text : String) : String :=
  String.ofList ('"' :: (text.toList.flatMap quoteChar ++ ['"']))

end LiveChess.Text
