/-! # The two sides

A side is white or black. Everything in the rules that depends on the side is a number read off
it: the direction its pawns walk in, the row its king and rooks start on and the row its pawns
start on. Rows are counted from black's back rank, so white moves towards smaller rows. -/

namespace LiveChess

/-- A side of the board. -/
inductive Color where
  | white
  | black
deriving DecidableEq, Repr

namespace Color

/-- The other side. -/
def opponent : Color → Color
  | white => black
  | black => white

/-- The row difference of one pawn step. -/
def forward : Color → Int8
  | white => -1
  | black => 1

/-- The row on which king and rooks start. -/
def homeRow : Color → UInt8
  | white => 7
  | black => 0

/-- The row on which the pawns start. -/
def pawnRow : Color → UInt8
  | white => 6
  | black => 1

/-- The name of a side. -/
def name : Color → String
  | white => "white"
  | black => "black"

/-- The side of a name. -/
def ofName? : String → Option Color
  | "white" => some white
  | "black" => some black
  | _ => none

@[simp] theorem opponent_opponent (c : Color) : c.opponent.opponent = c := by
  cases c <;> rfl

theorem opponent_ne (c : Color) : c.opponent ≠ c := by
  cases c <;> simp [opponent]

theorem ofName?_name (c : Color) : ofName? c.name = some c := by
  cases c <;> rfl

end Color
end LiveChess
