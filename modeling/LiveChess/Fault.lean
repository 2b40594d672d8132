import LiveChess.Duration
import LiveChess.Match.Record
import LiveChess.Text.Quoted

/-! # Faults and refusals

A store call can fail in four ways, and a request can be refused for nine reasons of its own or
because a store call failed. `message` words them for clients, and `httpStatus` classes them for
HTTP. -/

namespace LiveChess

/-- Why a store call failed. -/
inductive StoreFault where
  | unknown (id : MatchId)
  | corrupt (reason : String)
  | unavailable (reason : String)
  | overdue (budget : Duration)
deriving DecidableEq, Repr

/-- The wording of a failed store call. -/
def StoreFault.message : StoreFault → String
  | unknown id => "match " ++ id.text ++ " not found"
  | corrupt reason => "stored match is corrupt: " ++ reason
  | unavailable reason => "store unavailable: " ++ reason
  | overdue budget => "store call did not finish within " ++ budget.text

/-- Why a request was refused. -/
inductive Refusal where
  | notSeated
  | notOnTurn
  | noOpponent
  | notWaiting
  | alreadySeated
  | gameOver
  | badSquare (text : String)
  | illegalMove (source target : Square)
  | noSuchMatch
  | store (fault : StoreFault)
deriving DecidableEq, Repr

namespace Refusal

/-- The wording of a refusal. -/
def message : Refusal → String
  | notSeated => "this is not your game"
  | notOnTurn => "it is not your turn to move"
  | noOpponent => "game is waiting for an opponent"
  | notWaiting => "game is not in waiting status, you can not join"
  | alreadySeated => "you already hold a seat in this game"
  | gameOver => "game is over"
  | badSquare text => "invalid position format: " ++ Text.quoted text
  | illegalMove source target => "illegal move from " ++ source.text ++ " to " ++ target.text
  | noSuchMatch => "game not found"
  | store fault => fault.message

/-- The HTTP status a refusal is answered with. -/
def httpStatus : Refusal → Nat
  | noSuchMatch => 404
  | store (.unknown _) => 404
  | notSeated => 403
  | notWaiting => 409
  | alreadySeated => 409
  | gameOver => 409
  | store (.overdue _) => 503
  | store _ => 500
  | _ => 400

/-- The refusal for records that do not make a board. -/
def ofRecordFault (e : RecordFault) : Refusal := store (.corrupt e.message)

end Refusal

/-- Read the square that a request names. -/
def Square.parse (text : String) : Except Refusal Square :=
  match ofText? text with
  | some s => .ok s
  | none => .error (.badSquare text)

end LiveChess
