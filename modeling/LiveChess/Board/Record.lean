import LiveChess.Board.Move

/-! # Boards and records

A match is kept as the list of its pieces and the log of its moves, both in plain text and plain
bytes. `Board.ofRecords` rebuilds a board from them. Men come from the pieces alone, the later of
two on one square winning; the moves are not replayed but only counted as visits of the squares
they name. A logged castling also visits the two squares of the rook, which the log does not name:
an entry counts as castling if it goes two files sideways from its side's king square while that
square is still unvisited. -/

namespace LiveChess

/-- A logged move: who moved, from where and to where. -/
structure MoveRecord where
  player : Color
  source : String
  target : String
deriving DecidableEq, Repr

/-- A recorded piece. -/
structure PieceRecord where
  player : Color
  kind : Kind
  row : UInt8
  col : UInt8
deriving DecidableEq, Repr

/-- The record of a piece. -/
def Piece.toRecord (p : Piece) : PieceRecord := ⟨p.color, p.kind, p.square.row, p.square.col⟩

/-- Why records do not make a board. -/
inductive RecordFault where
  | pieceOffBoard (row col : UInt8)
  | badSquare (text : String)
deriving DecidableEq, Repr

/-- The wording of a fault. -/
def RecordFault.message : RecordFault → String
  | pieceOffBoard row col =>
    "piece outside the board at " ++ toString row.toNat ++ ":" ++ toString col.toNat
  | badSquare text => "bad move square " ++ text

namespace Board

/-- The records of the pieces on a board, row by row. -/
def toRecords (b : Board) : List PieceRecord := b.pieces.map Piece.toRecord

/-- Put a recorded piece on its square. -/
def putRecord (b : Board) (r : PieceRecord) : Except RecordFault Board :=
  match Square.ofRowCol? r.row r.col with
  | some s => .ok (b.put ⟨r.kind, r.player, s⟩)
  | none => .error (.pieceOffBoard r.row r.col)

/-- Going two files sideways from a side's unvisited king square. -/
def isLoggedCastling (b : Board) (c : Color) (s t : Square) : Bool :=
  decide (s = c.kingHome) && decide (t.row = s.row) &&
    decide (s.col.toNat = t.col.toNat + 2 ∨ t.col.toNat = s.col.toNat + 2) &&
    decide (b.visits s = 0)

/-- The way of the rook in a logged castling. -/
def loggedRook (b : Board) (c : Color) (s t : Square) : Option RookLeg :=
  if b.isLoggedCastling c s t then RookLeg.ofKing? s.row t.col else none

/-- Count the visits of a logged move. -/
def countMove (b : Board) (c : Color) (s t : Square) : Board :=
  match b.loggedRook c s t with
  | some leg => (((b.visit leg.source).visit leg.target).visit s).visit t
  | none => (b.visit s).visit t

/-- Read the square that a log entry names. -/
def readSquare (text : String) : Except RecordFault Square :=
  match Square.ofText? text with
  | some s => .ok s
  | none => .error (.badSquare text)

/-- Count the visits of a log entry. -/
def countRecord (b : Board) (m : MoveRecord) : Except RecordFault Board :=
  match readSquare m.source with
  | .error e => .error e
  | .ok s =>
    match readSquare m.target with
    | .error e => .error e
    | .ok t => .ok (b.countMove m.player s t)

/-- The board of a list of pieces and a log. -/
def ofRecords (pieces : List PieceRecord) (log : List MoveRecord) : Except RecordFault Board :=
  match pieces.foldlM putRecord empty with
  | .error e => .error e
  | .ok b => log.foldlM countRecord b

end Board
end LiveChess
