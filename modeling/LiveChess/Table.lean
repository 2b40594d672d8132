import LiveChess.Connections
import LiveChess.Match.Snapshot
import LiveChess.Store

/-! # Tables

A table is one live match: the game, the budget for its store calls and the connections that follow
it. A change of the game is saved first and kept only if saving worked, so the
game in memory never runs ahead of its record. -/

namespace LiveChess

/-- A live match. The serial number tells apart tables of one match that were set up one after
another. -/
structure Table where
  id : MatchId
  serial : Nat
  budget : Duration
  game : Game
  followers : Connections

namespace Table

/-- Set up the table of a record, with nobody following. -/
def setUp (serial : Nat) (id : MatchId) (r : MatchRecord) (budget : Duration) :
    Except Refusal Table :=
  match Game.ofRecord r with
  | .ok g => .ok ⟨id, serial, budget, g, .empty⟩
  | .error e => .error e

/-! ### The game -/

/-- Save the next state of the game and, if that works, make it the present one. -/
def commit (t : Table) (next : Game) (s : Store) : Except Refusal Unit × Table × Store :=
  match s.save t.id next.toRecord t.budget with
  | (.ok (), s) => (.ok (), { t with game := next }, s)
  | (.error e, s) => (.error (.store e), t, s)

/-- Take the first free seat. -/
def join (t : Table) (u : UserId) (s : Store) : Except Refusal Color × Table × Store :=
  match t.game.join u with
  | .error e => (.error e, t, s)
  | .ok (seat, next) =>
    match t.commit next s with
    | (.ok (), t, s) => (.ok seat, t, s)
    | (.error e, t, s) => (.error e, t, s)

/-- Move a man. -/
def move (t : Table) (u : UserId) (source target : Square) (s : Store) :
    Except Refusal MoveOutcome × Table × Store :=
  match t.game.move u source target with
  | .error e => (.error e, t, s)
  | .ok (outcome, next) =>
    match t.commit next s with
    | (.ok (), t, s) => (.ok outcome, t, s)
    | (.error e, t, s) => (.error e, t, s)

/-! ### The followers -/

/-- Let a connection follow the match. -/
def connect (t : Table) (c : Connection) : Table := { t with followers := t.followers.insert c }

/-- Let connections follow the match. -/
def connectAll (t : Table) (cs : List Connection) : Table := cs.foldl connect t

/-- Let a connection no longer follow the match. -/
def disconnect (t : Table) (c : Connection) : Table := { t with followers := t.followers.erase c }

/-- Let a connection no longer follow the match, and say whether it did. -/
def dismiss (t : Table) (c : Connection) : Bool × Table :=
  let (followed, rest) := t.followers.remove c
  (followed, { t with followers := rest })

/-- The following users, ascending. -/
def viewers (t : Table) : List UserId := t.followers.users

/-- The picture of the match. -/
def snapshot (t : Table) : Snapshot := t.game.snapshot t.id t.viewers

end Table
end LiveChess
