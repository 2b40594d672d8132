import LiveChess.Board.Record
import LiveChess.Ident
import LiveChess.Match.Status

/-! # Match records

What is kept of a match between two visits to memory: who holds the seats, whose turn it is, the
log, the pieces, the status and the winner. -/

namespace LiveChess

/-- The two seats of a match. -/
structure Seats where
  white : Option UserId
  black : Option UserId
deriving DecidableEq, Repr

namespace Seats

/-- Who holds the seat of a side. -/
def player (s : Seats) : Color → Option UserId
  | .white => s.white
  | .black => s.black

/-- The side a user plays; white, if the user holds both seats. -/
def seatOf (s : Seats) (u : UserId) : Option Color :=
  if s.white = some u then some .white
  else if s.black = some u then some .black
  else none

/-- Both seats are held. -/
def full (s : Seats) : Bool := s.white.isSome && s.black.isSome

/-- Put a user on the seat of a side. -/
def seat (s : Seats) (c : Color) (u : UserId) : Seats :=
  match c with
  | .white => { s with white := some u }
  | .black => { s with black := some u }

/-- The first free seat, white before black. -/
def firstFree (s : Seats) : Option Color :=
  if s.white.isNone then some .white
  else if s.black.isNone then some .black
  else none

end Seats

/-- A match as it is stored. -/
structure MatchRecord where
  seats : Seats
  turn : Color
  log : List MoveRecord
  pieces : List PieceRecord
  status : Status
  winner : Option UserId
deriving DecidableEq, Repr

/-- A new match in the starting position, under way as soon as both seats are held. -/
def MatchRecord.fresh (seats : Seats) : MatchRecord where
  seats := seats
  turn := .white
  log := []
  pieces := Board.start.toRecords
  status := if seats.full then .underway else .waiting
  winner := none

end LiveChess
