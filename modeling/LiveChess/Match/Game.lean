import LiveChess.Fault

/-! # A match in play

The state of one match in memory and the three things users do with it: take a free seat, ask for
the squares a piece may go to, and move. Each is a function of the state that either refuses or
gives the state after it; nothing is half done. `ofRecord` and `toRecord` go between a match in
memory and its record. -/

namespace LiveChess

/-- A match in memory. -/
structure Game where
  seats : Seats
  turn : Color
  status : Status
  winner : Option UserId
  log : List MoveRecord
  board : Board
deriving DecidableEq

/-- What a move led to. -/
structure MoveOutcome where
  mover : Color
  source : Square
  target : Square
  inCheck : Bool
  checkmate : Bool
deriving DecidableEq, Repr

namespace Game

/-- The match of a record; one with neither pieces nor moves is at the starting position. -/
def ofRecord (r : MatchRecord) : Except Refusal Game :=
  let board :=
    if r.pieces.isEmpty && r.log.isEmpty then .ok Board.start else Board.ofRecords r.pieces r.log
  match board with
  | .ok b => .ok ⟨r.seats, r.turn, r.status, r.winner, r.log, b⟩
  | .error e => .error (.ofRecordFault e)

/-- The record of a match. -/
def toRecord (g : Game) : MatchRecord :=
  ⟨g.seats, g.turn, g.log, g.board.toRecords, g.status, g.winner⟩

/-- The side a user may act for: the user's own, with an opponent present and the turn on it. -/
def checkPlayer (g : Game) (u : UserId) : Except Refusal Color :=
  match g.seats.seatOf u with
  | none => .error .notSeated
  | some c =>
    if !g.seats.full then .error .noOpponent
    else if g.seats.player g.turn = some u then .ok c
    else .error .notOnTurn

/-- Take the first free seat. -/
def join (g : Game) (u : UserId) : Except Refusal (Color × Game) :=
  if g.status ≠ .waiting then .error .notWaiting
  else if (g.seats.seatOf u).isSome then .error .alreadySeated
  else
    match g.seats.firstFree with
    | none => .error .notWaiting
    | some c =>
      let seats := g.seats.seat c u
      let status := if seats.full then g.status.advance .underway else g.status
      .ok (c, { g with seats := seats, status := status })

/-- The squares to which whatever stands on a square may be moved. -/
def movesFrom (g : Game) (u : UserId) (s : Square) : Except Refusal (List Square) :=
  match g.checkPlayer u with
  | .error e => .error e
  | .ok _ => .ok (g.board.movesFrom s)

/-- The match after a move of the side on turn. -/
def afterMove (g : Game) (u : UserId) (mover : Color) (s t : Square) (board : Board) :
    MoveOutcome × Game :=
  let turn := mover.opponent
  let inCheck := board.inCheck turn
  let checkmate := inCheck && board.isCheckmate turn
  (⟨mover, s, t, inCheck, checkmate⟩,
    { g with
      board := board
      log := g.log ++ [⟨mover, s.text, t.text⟩]
      turn := turn
      status := if checkmate then g.status.advance .closed else g.status
      winner := if checkmate then some u else g.winner })

/-- The user may move: seated, in a match that is under way and not over, and on turn. -/
def checkMover (g : Game) (u : UserId) : Except Refusal Color :=
  if (g.seats.seatOf u).isNone then .error .notSeated
  else if g.status = .closed then .error .gameOver
  else
    match g.checkPlayer u with
    | .error e => .error e
    | .ok c => if g.status ≠ .underway then .error .noOpponent else .ok c

/-- Move the user's man on `s` to `t`. -/
def move (g : Game) (u : UserId) (s t : Square) : Except Refusal (MoveOutcome × Game) :=
  match g.checkMover u with
  | .error e => .error e
  | .ok mover =>
    match g.board.pieceAt s with
    | none => .error (.illegalMove s t)
    | some p =>
      if p.color ≠ mover then .error (.illegalMove s t)
      else
        match g.board.play? p t with
        | none => .error (.illegalMove s t)
        | some (_, board) => .ok (g.afterMove u mover s t board)

end Game
end LiveChess
