import LiveChess.Message
import LiveChess.Wire.Record

/-! # Notices as JSON

A notice is an object of a type and a content; the content names the match and holds the data of
the notice, or only a wording if a request was refused. -/

namespace LiveChess

/-- A square by its row and column. -/
def Square.toJson (s : Square) : Json :=
  .obj [("row", .ofNat s.row.toNat), ("col", .ofNat s.col.toNat)]

/-- A piece. -/
def Piece.toJson (p : Piece) : Json :=
  .obj [("kind", p.kind.toJson), ("color", p.color.toJson), ("position", p.square.toJson)]

/-- Rows of squares. -/
def gridToJson (grid : List (List (Option Piece))) : Json :=
  .arr (grid.map fun row => .arr (row.map (.ofOption Piece.toJson)))

/-- Whose turn it is, and who plays that side. -/
def turnToJson (seats : Seats) (turn : Color) : Json :=
  .obj [("color", turn.toJson), ("userId", .ofOption UserId.toJson (seats.player turn))]

/-- A snapshot. -/
def Snapshot.toJson (s : Snapshot) : Json :=
  .obj [("matchId", s.id.toJson),
    ("whitePlayerId", .ofOption UserId.toJson s.seats.white),
    ("blackPlayerId", .ofOption UserId.toJson s.seats.black),
    ("turn", turnToJson s.seats s.turn),
    ("status", s.status.toJson),
    ("winner", .ofOption UserId.toJson s.winner),
    ("board", gridToJson s.grid),
    ("moves", .arr (s.log.map MoveRecord.toJson)),
    ("pieces", .arr (s.pieces.map PieceRecord.toJson)),
    ("isInCheck", .bool s.inCheck),
    ("isCheckmate", .bool s.checkmate),
    ("viewers", .arr (s.viewers.map UserId.toJson))]

/-- A wording for a client. -/
def messageToJson (message : String) : Json := .obj [("message", .str message)]

namespace Notice

/-- An object of a type and a content. -/
def envelope (type : String) (content : Json) : Json :=
  .obj [("type", .str type), ("content", content)]

/-- News about a match. -/
def news (type : String) (id : MatchId) (data : Json) : Json :=
  envelope type (.obj [("matchId", id.toJson), ("data", data)])

/-- A notice, with snapshots written by `picture`. -/
def toJsonWith (picture : Snapshot → Json) : Notice → Json
  | newBoard id s => news "new-board" id (picture s)
  | playerJoined id s => news "chess-player-joined" id (picture s)
  | newWatcher id u => news "chess-new-watcher" id (.obj [("userId", u.toJson)])
  | validMoves id squares => news "chess-valid-moves" id (.arr (squares.map fun s => .str s.text))
  | pieceMoved id s t =>
    news "chess-move-piece" id (.obj [("from", .str s.text), ("to", .str t.text)])
  | inCheck id s => news "chess-in-check" id (picture s)
  | checkmate id s => news "chess-checkmate" id (picture s)
  | refused e => envelope "error-msg" (messageToJson e.message)

/-- A notice. -/
def toJson (n : Notice) : Json := n.toJsonWith Snapshot.toJson

/-- The text of a notice. -/
def text (n : Notice) : String := n.toJson.text

end Notice
end LiveChess
