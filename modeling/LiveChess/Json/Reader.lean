import LiveChess.Json.Range
import LiveChess.Text.Hex

/-! # Reading JSON

A reader of plain JSON by recursive descent: no comments, no trailing commas, no text after the
value. `parse` reads every text of the grammar, marking what has no value as unreadable; `read`
takes only texts that are readable throughout and not nested too deep. -/

namespace LiveChess.Json

/-- The four blanks of JSON. -/
def isBlank (c : Char) : Bool :=
  decide (c = ' ') || decide (c = '\n') || decide (c = '\r') || decide (c = '\t')

/-- The text from its first character that is not blank. -/
def skipBlanks (cs : List Char) : List Char := cs.dropWhile isBlank

/-! ### Strings -/

/-- The value of four hex digits. -/
def hexUnit? (a b c d : Char) : Option Nat :=
  match Text.hexValue? a, Text.hexValue? b, Text.hexValue? c, Text.hexValue? d with
  | some a, some b, some c, some d => some (((a * 16 + b) * 16 + c) * 16 + d)
  | _, _, _, _ => none

/-- The first half of a surrogate pair. -/
def isHighHalf (n : Nat) : Bool := decide (0xD800 ≤ n ∧ n < 0xDC00)

/-- The second half of a surrogate pair. -/
def isLowHalf (n : Nat) : Bool := decide (0xDC00 ≤ n ∧ n < 0xE000)

/-- The character of a surrogate pair. -/
def pairChar (high low : Nat) : Char :=
  Char.ofNat (0x10000 + (high - 0xD800) * 0x400 + (low - 0xDC00))

/-- The character of a one-letter escape. -/
def escaped? (c : Char) : Option Char :=
  match c with
  | '"' => some '"'
  | '\\' => some '\\'
  | '/' => some '/'
  | 'b' => some (Char.ofNat 8)
  | 'f' => some (Char.ofNat 12)
  | 'n' => some '\n'
  | 'r' => some '\r'
  | 't' => some '\t'
  | _ => none

/-- A character, or half a pair standing alone, before what was read after it. -/
def prepend (c : Option Char) (rest : Option (List (Option Char) × List Char)) :
    Option (List (Option Char) × List Char) :=
  rest.map fun r => (c :: r.1, r.2)

/-- The characters up to the closing quote, and the text after it. -/
def readChars : List Char → Option (List (Option Char) × List Char)
  | [] => none
  | '"' :: r => some ([], r)
  | '\\' :: 'u' :: a :: b :: c :: d :: r =>
    match hexUnit? a b c d with
    | none => none
    | some n =>
      if isLowHalf n then prepend none (readChars r)
      else if isHighHalf n then
        match r with
        | '\\' :: 'u' :: a' :: b' :: c' :: d' :: r' =>
          match hexUnit? a' b' c' d' with
          | none => none
          | some m =>
            if isLowHalf m then prepend (some (pairChar n m)) (readChars r')
            else prepend none (readChars ('\\' :: 'u' :: a' :: b' :: c' :: d' :: r'))
        | r => prepend none (readChars r)
      else prepend (some (Char.ofNat n)) (readChars r)
  | '\\' :: c :: r =>
    match escaped? c with
    | none => none
    | some e => prepend (some e) (readChars r)
  | c :: r => if c.toNat < 32 then none else prepend (some c) (readChars r)

/-- A string after its opening quote; no text if half a surrogate pair stands alone. -/
def readString (cs : List Char) : Option (Option String × List Char) :=
  (readChars cs).map fun r => ((r.1.mapM id).map String.ofList, r.2)

/-! ### Numbers -/

/-- The value of a decimal digit. -/
def digit? (c : Char) : Option (Fin 10) :=
  if h : '0' ≤ c ∧ c ≤ '9' then
    some ⟨c.toNat - 48, by
      have : c.toNat ≤ 57 := h.2
      omega⟩
  else
    none

/-- The digits at the start of a text, and the text after them. -/
def readDigits : List Char → List (Fin 10) × List Char
  | [] => ([], [])
  | c :: r =>
    match digit? c with
    | some d => (d :: (readDigits r).1, (readDigits r).2)
    | none => ([], c :: r)

/-- The number that digits write. -/
def natOfDigits (ds : List (Fin 10)) : Nat := ds.foldl (fun acc d => 10 * acc + d.val) 0

/-- A whole number without needless zeros. -/
def readWhole (cs : List Char) : Option (Nat × List Char) :=
  match cs with
  | '0' :: r => some (0, r)
  | cs =>
    match readDigits cs with
    | ([], _) => none
    | (ds, r) => some (natOfDigits ds, r)

/-- A point and digits, or nothing. -/
def readFraction (cs : List Char) : Option (List (Fin 10) × List Char) :=
  match cs with
  | '.' :: r =>
    match readDigits r with
    | ([], _) => none
    | (ds, r) => some (ds, r)
  | cs => some ([], cs)

/-- A sign or none. -/
def readSign (cs : List Char) : Bool × List Char :=
  match cs with
  | '-' :: r => (true, r)
  | '+' :: r => (false, r)
  | cs => (false, cs)

/-- The letter e and a power of ten, or nothing. -/
def readExponent (cs : List Char) : Option (Option Int × List Char) :=
  match cs with
  | c :: r =>
    if c = 'e' ∨ c = 'E' then
      let (negative, r) := readSign r
      match readDigits r with
      | ([], _) => none
      | (ds, r) =>
        let n : Int := natOfDigits ds
        some (some (if negative then -n else n), r)
    else
      some (none, c :: r)
  | [] => some (none, [])

/-- A number. -/
def readNumber (cs : List Char) : Option (Number × List Char) :=
  let (negative, cs) :=
    match cs with
    | '-' :: r => (true, r)
    | cs => (false, cs)
  match readWhole cs with
  | none => none
  | some (whole, cs) =>
    match readFraction cs with
    | none => none
    | some (fraction, cs) =>
      match readExponent cs with
      | none => none
      | some (exponent, cs) => some (⟨negative, whole, fraction, exponent⟩, cs)

/-! ### Values -/

/-- A member list whose names all have a text. -/
def ofMembers (members : List (Option String × Json)) : Json :=
  match members.mapM fun m => m.1.map fun s => (s, m.2) with
  | some members => .obj members
  | none => .unreadable

mutual

/-- A value and the text after it. The first argument bounds the steps; twice the length of the
text is enough. -/
def readValue : Nat → List Char → Option (Json × List Char)
  | 0, _ => none
  | n + 1, cs =>
    match skipBlanks cs with
    | 'n' :: 'u' :: 'l' :: 'l' :: r => some (.null, r)
    | 't' :: 'r' :: 'u' :: 'e' :: r => some (.bool true, r)
    | 'f' :: 'a' :: 'l' :: 's' :: 'e' :: r => some (.bool false, r)
    | '"' :: r =>
      match readString r with
      | none => none
      | some (some s, r) => some (.str s, r)
      | some (none, r) => some (.unreadable, r)
    | '[' :: r =>
      match skipBlanks r with
      | ']' :: r => some (.arr [], r)
      | r => (readItems n r).map fun x => (.arr x.1, x.2)
    | '{' :: r =>
      match skipBlanks r with
      | '}' :: r => some (.obj [], r)
      | r => (readMembers n r).map fun x => (ofMembers x.1, x.2)
    | r =>
      (readNumber r).map fun x => (if x.1.inRange then .num x.1 else .unreadable, x.2)

/-- The items of an array up to its closing bracket. -/
def readItems : Nat → List Char → Option (List Json × List Char)
  | 0, _ => none
  | n + 1, cs =>
    match readValue n cs with
    | none => none
    | some (j, r) =>
      match skipBlanks r with
      | ',' :: r => (readItems n r).map fun x => (j :: x.1, x.2)
      | ']' :: r => some ([j], r)
      | _ => none

/-- The members of an object up to its closing brace. -/
def readMembers : Nat → List Char → Option (List (Option String × Json) × List Char)
  | 0, _ => none
  | n + 1, cs =>
    match skipBlanks cs with
    | '"' :: r =>
      match readString r with
      | none => none
      | some (s, r) =>
        match skipBlanks r with
        | ':' :: r =>
          match readValue n r with
          | none => none
          | some (j, r) =>
            match skipBlanks r with
            | ',' :: r => (readMembers n r).map fun x => ((s, j) :: x.1, x.2)
            | '}' :: r => some ([(s, j)], r)
            | _ => none
        | _ => none
    | _ => none

end

/-- The value a text consists of, unreadable parts included. -/
def parse (text : String) : Option Json :=
  let cs := text.toList
  match readValue (2 * cs.length + 1) cs with
  | some (j, r) => if skipBlanks r = [] then some j else none
  | none => none

/-- The value a text consists of, if it is readable throughout and within the depth limit. -/
def read (text : String) : Option Json :=
  (parse text).filter fun j => j.isReadable && decide (j.depth ≤ depthLimit)

end LiveChess.Json
