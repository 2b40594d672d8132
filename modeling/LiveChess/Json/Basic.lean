/-! # JSON values

Trees of JSON. An object keeps its members in order, repetitions included, since whether a repeated
name matters is for the reader of the object to say. Numbers are kept as decimals, not rounded.

Some values can be skipped but not read: a text whose escapes leave half of a surrogate pair alone,
a number beyond the range of doubles, an object one of whose names is such a text. They are all
`unreadable`. -/

namespace LiveChess

/-- A decimal number: whole part, digits after the point and power of ten. -/
structure Json.Number where
  negative : Bool
  whole : Nat
  fraction : List (Fin 10)
  exponent : Option Int
deriving DecidableEq, Repr

/-- A JSON value. -/
inductive Json where
  | null
  | bool (b : Bool)
  | num (n : Json.Number)
  | str (s : String)
  | arr (items : List Json)
  | obj (members : List (String × Json))
  | unreadable
deriving Inhabited, Repr

namespace Json

/-- A whole number. -/
def ofNat (n : Nat) : Json := .num ⟨false, n, [], none⟩

/-- A value or null. -/
def ofOption {α : Type} (f : α → Json) : Option α → Json
  | some a => f a
  | none => .null

/-! ### Numbers -/

namespace Number

/-- The value of a number written without sign, point and exponent. -/
def toNat? (n : Number) : Option Nat :=
  if n.negative = false ∧ n.fraction = [] ∧ n.exponent = none then some n.whole else none

end Number

/-! ### Depth and readability -/

mutual

/-- How deep arrays and objects are nested in a value. -/
def depth : Json → Nat
  | .arr items => 1 + depthOfItems items
  | .obj members => 1 + depthOfMembers members
  | _ => 0

/-- The greatest depth among the items of an array. -/
def depthOfItems : List Json → Nat
  | [] => 0
  | j :: js => max (depth j) (depthOfItems js)

/-- The greatest depth among the members of an object. -/
def depthOfMembers : List (String × Json) → Nat
  | [] => 0
  | (_, j) :: ms => max (depth j) (depthOfMembers ms)

end

mutual

/-- No part of the value is unreadable. -/
def isReadable : Json → Bool
  | .unreadable => false
  | .arr items => areReadable items
  | .obj members => membersReadable members
  | _ => true

/-- No item is unreadable. -/
def areReadable : List Json → Bool
  | [] => true
  | j :: js => isReadable j && areReadable js

/-- No member is unreadable. -/
def membersReadable : List (String × Json) → Bool
  | [] => true
  | (_, j) :: ms => isReadable j && membersReadable ms

end

/-- How deep a value may be nested that is read as a whole. -/
def depthLimit : Nat := 127

/-! ### Parts of a value -/

/-- The text of a string. -/
def asString? : Json → Option String
  | .str s => some s
  | _ => none

/-- The value of a whole number. -/
def asNat? : Json → Option Nat
  | .num n => n.toNat?
  | _ => none

/-- The value of a whole number below 256. -/
def asByte? (j : Json) : Option UInt8 :=
  j.asNat?.bind fun n => if n < 256 then some n.toUInt8 else none

/-- The items of an array, each read by `f`. -/
def asList? {α : Type} (f : Json → Option α) : Json → Option (List α)
  | .arr items => items.mapM f
  | _ => none

/-- A name out of a fixed choice: a string, or an object whose only member has that name and is
null. -/
def asChoice? {α : Type} (f : String → Option α) : Json → Option α
  | .str s => f s
  | .obj [(s, .null)] => f s
  | _ => none

/-- The members of a name: none, one, or a failure if it is repeated. -/
def member? (name : String) (members : List (String × Json)) : Option (Option Json) :=
  match members.filter fun m => decide (m.1 = name) with
  | [] => some none
  | [m] => some (some m.2)
  | _ => none

/-- The named fields of a value, in the order of the names: the members of an object, names in any
order and unknown ones skipped, or the items of an array of just that length. -/
def fields? (names : List String) : Json → Option (List (Option Json))
  | .obj members => names.mapM fun name => member? name members
  | .arr items => if items.length = names.length then some (items.map some) else none
  | _ => none

/-- A field that has to be there. -/
def required? {α : Type} (f : Json → Option α) (field : Option Json) : Option α := field.bind f

/-- A field that may be left out or null. -/
def optional? {α : Type} (f : Json → Option α) : Option Json → Option (Option α)
  | none => some none
  | some .null => some none
  | some j => (f j).map some

end Json
end LiveChess
