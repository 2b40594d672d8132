import LiveChess.Board.Attack

/-! # Castling

A king that castles goes two files sideways from its home square, and the rook of that wing goes
from its corner to the square the king crosses. It is open to a king and a rook whose home squares
no man has left or entered, with nothing between them, as long as the opponent attacks neither the
king's square nor the one it crosses nor the one it lands on. -/

namespace LiveChess

/-- The way of the rook in castling. -/
structure RookLeg where
  source : Square
  target : Square
deriving DecidableEq, Repr

/-- The way of the rook when a king castles within a row onto a column. -/
def RookLeg.ofKing? (row kingCol : UInt8) : Option RookLeg :=
  if kingCol = 6 then some ⟨⟨row, 7⟩, ⟨row, 5⟩⟩
  else if kingCol = 2 then some ⟨⟨row, 0⟩, ⟨row, 3⟩⟩
  else none

/-- The square a side's king starts on. -/
def Color.kingHome (c : Color) : Square := ⟨c.homeRow, 4⟩

namespace Board

/-- King and rook are where they started, untouched, and see each other. -/
def castlingReady (b : Board) (c : Color) (leg : RookLeg) : Bool :=
  decide (b.manAt leg.source = some ⟨.rook, c⟩) &&
    decide (b.visits c.kingHome = 0) && decide (b.visits leg.source = 0) &&
    !b.isBlocked c.kingHome leg.source

/-- The way of the rook if the piece is a king that may castle onto `t`. -/
def castling? (b : Board) (p : Piece) (t : Square) : Option RookLeg :=
  if p.kind = .king ∧ p.square = p.color.kingHome ∧ t.row = p.color.homeRow then
    (RookLeg.ofKing? t.row t.col).filter fun leg =>
      b.castlingReady p.color leg &&
        [p.square, leg.target, t].all fun s => !b.isAttacked s p.color.opponent
  else
    none

end Board
end LiveChess
