import LiveChess.Match.Snapshot

/-! # Messages

What clients send over a connection, and what they are sent. -/

namespace LiveChess

/-- What a client asks for over its connection; squares are still text. -/
inductive Command where
  | showMoves (id : MatchId) (source : String)
  | move (id : MatchId) (source target : String)
deriving DecidableEq, Repr

/-- What a client is told. -/
inductive Notice where
  | newBoard (id : MatchId) (picture : Snapshot)
  | playerJoined (id : MatchId) (picture : Snapshot)
  | newWatcher (id : MatchId) (user : UserId)
  | validMoves (id : MatchId) (squares : List Square)
  | pieceMoved (id : MatchId) (source target : Square)
  | inCheck (id : MatchId) (picture : Snapshot)
  | checkmate (id : MatchId) (picture : Snapshot)
  | refused (reason : Refusal)
deriving DecidableEq, Repr

end LiveChess
