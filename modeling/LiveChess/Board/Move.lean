import LiveChess.Board.Castling

/-! # Moves

`admits` is the rule of a single move: geometry, what stands on the way and at its end, and
castling. `moves` is what a side may play: while its king is in check, only the admitted moves
that end the check; otherwise every admitted move, also one that steps into check. `play?` plays
such a move and no other, and `isCheckmate` says that no admitted move ends a check. -/

namespace LiveChess

/-- What a played move did to the board. -/
structure Placement where
  piece : Piece
  source : Square
  target : Square
  captured : Option Piece
  rookLeg : Option RookLeg
deriving DecidableEq, Repr

namespace Board

/-! ### The rule of one move -/

/-- The move of a pawn: a step, a double step from its start, or a capture. -/
def admitsPawn (b : Board) (p : Piece) (t : Square) : Bool :=
  let rows := Square.rowDelta p.square t
  let files := (Square.colDelta p.square t).abs
  if files = 0 ∧ rows = p.color.forward then
    (b.manAt t).isNone
  else if files = 0 ∧ rows = 2 * p.color.forward then
    decide (p.square.row = p.color.pawnRow) && (b.manAt t).isNone &&
      (p.square.offset p.color.forward 0).any fun s => (b.manAt s).isNone
  else if files = 1 ∧ rows = p.color.forward then
    (b.manAt t).any fun m => decide (m.color ≠ p.color)
  else
    false

/-- A piece may move to a square: it stands where it says, no man of its side stands there, and
its kind gets there. -/
def admits (b : Board) (p : Piece) (t : Square) : Bool :=
  decide t.OnBoard && decide (b.pieceAt p.square = some p) &&
    !((b.manAt t).any fun m => decide (m.color = p.color)) &&
    match p.kind with
    | .pawn => b.admitsPawn p t
    | .king => Square.isKingStep p.square t || (b.castling? p t).isSome
    | _ => b.reaches p t

/-- The squares a piece may move to, row by row. -/
def admitted (b : Board) (p : Piece) : List Square := Square.all.filter (b.admits p)

/-! ### Carrying a move out -/

/-- The way of the rook that a move carries along: that of a king going two files. -/
def carriedRook (p : Piece) (t : Square) : Option RookLeg :=
  if p.kind = .king ∧
      (p.square.col.toNat = t.col.toNat + 2 ∨ t.col.toNat = p.square.col.toNat + 2) then
    RookLeg.ofKing? p.square.row t.col
  else
    none

/-- Carry out a move without asking whether it is admitted. -/
def apply (b : Board) (p : Piece) (t : Square) : Board :=
  match carriedRook p t with
  | some leg => (b.relocate p.square t).relocate leg.source leg.target
  | none => b.relocate p.square t

/-- What carrying out a move does. -/
def placement (b : Board) (p : Piece) (t : Square) : Placement where
  piece := { p with square := t }
  source := p.square
  target := t
  captured := if t = p.square then none else b.pieceAt t
  rookLeg := carriedRook p t

/-! ### What may be played -/

/-- A move after which the mover's own king is in check. -/
def leavesInCheck (b : Board) (p : Piece) (t : Square) : Bool := (b.apply p t).inCheck p.color

/-- The squares a piece may be played to. -/
def moves (b : Board) (p : Piece) : List Square :=
  if b.inCheck p.color then
    (b.admitted p).filter fun t => !b.leavesInCheck p t
  else
    b.admitted p

/-- The squares that whatever stands on a square may be played to. -/
def movesFrom (b : Board) (s : Square) : List Square :=
  match b.pieceAt s with
  | some p => b.moves p
  | none => []

/-- Play a piece to one of its squares. -/
def play? (b : Board) (p : Piece) (t : Square) : Option (Placement × Board) :=
  if t ∈ b.moves p then some (b.placement p t, b.apply p t) else none

/-- A side is in check and none of its moves ends the check. -/
def isCheckmate (b : Board) (c : Color) : Bool :=
  b.inCheck c &&
    b.pieces.all fun p =>
      decide (p.color ≠ c) || (b.admitted p).all fun t => b.leavesInCheck p t

end Board
end LiveChess
