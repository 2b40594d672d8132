import LiveChess.Match.Game

/-! # Snapshots

Everything a client needs to draw a match: the record, the grid, whether the side on turn is in
check or mated, and who is looking on. -/

namespace LiveChess

/-- A picture of a match at one moment. -/
structure Snapshot where
  id : MatchId
  seats : Seats
  turn : Color
  status : Status
  winner : Option UserId
  grid : List (List (Option Piece))
  log : List MoveRecord
  pieces : List PieceRecord
  inCheck : Bool
  checkmate : Bool
  viewers : List UserId
deriving DecidableEq, Repr

/-- The picture of a match with the given onlookers. -/
def Game.snapshot (g : Game) (id : MatchId) (viewers : List UserId) : Snapshot where
  id := id
  seats := g.seats
  turn := g.turn
  status := g.status
  winner := g.winner
  grid := g.board.grid
  log := g.log
  pieces := g.board.toRecords
  inCheck := g.board.inCheck g.turn
  checkmate := g.board.isCheckmate g.turn
  viewers := viewers

end LiveChess
