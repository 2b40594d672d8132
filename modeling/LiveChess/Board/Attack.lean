import LiveChess.Board.Basic

/-! # Attacks

A piece attacks the squares it could capture on: a pawn its two forward diagonals, a knight its
jumps, a king its neighbours, and rooks, bishops and queens every square of their lines that no
man blocks. Castling attacks nothing, and no piece attacks its own square. -/

namespace LiveChess.Board

/-- Some man stands strictly between two squares of a line. -/
def isBlocked (b : Board) (s t : Square) : Bool :=
  (Square.between s t).any fun u => (b.manAt u).isSome

/-- The squares a piece other than a pawn or a king can go to, but for the men on them. -/
def reaches (b : Board) (p : Piece) (t : Square) : Bool :=
  match p.kind with
  | .knight => Square.isKnightJump p.square t
  | .rook => Square.isStraight p.square t && !b.isBlocked p.square t
  | .bishop => Square.isDiagonal p.square t && !b.isBlocked p.square t
  | .queen =>
    (Square.isStraight p.square t || Square.isDiagonal p.square t) && !b.isBlocked p.square t
  | .pawn => false
  | .king => false

/-- The squares a piece could capture on. -/
def attacks (b : Board) (p : Piece) (t : Square) : Bool :=
  decide (p.square ≠ t) &&
    match p.kind with
    | .pawn =>
      decide (Square.rowDelta p.square t = p.color.forward) &&
        decide ((Square.colDelta p.square t).abs = 1)
    | .king => Square.isKingStep p.square t
    | _ => b.reaches p t

/-- Some piece of a side attacks a square. -/
def isAttacked (b : Board) (t : Square) (side : Color) : Bool :=
  b.pieces.any fun p => decide (p.color = side) && b.attacks p t

/-- A side's king stands on an attacked square. -/
def inCheck (b : Board) (c : Color) : Bool :=
  match b.findKing c with
  | some s => b.isAttacked s c.opponent
  | none => false

end LiveChess.Board
