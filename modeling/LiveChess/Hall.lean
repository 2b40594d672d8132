import LiveChess.Table

/-! # The hall

The tables in use, by match. A table is set up from the store when its match is first asked for
and stays the same table until it is cleared away. -/

namespace LiveChess

/-- The tables in use, the budget of their store calls and the number of tables set up so far. -/
structure Hall where
  tables : SortedMap MatchId Table
  budget : Duration
  issued : Nat

namespace Hall

/-- The hall without tables. -/
def new (budget : Duration) : Hall := ⟨.empty, budget, 0⟩

/-- The matches a user holds a seat in, as the store has them. -/
def seated (h : Hall) (u : UserId) (s : Store) : Except Refusal (List MatchId) :=
  match s.seated u h.budget with
  | .ok ids => .ok ids
  | .error e => .error (.store e)

/-- Set up a table for a record, in place of one already there. -/
def setUp (h : Hall) (id : MatchId) (r : MatchRecord) : Except Refusal (Table × Hall) :=
  match Table.setUp h.issued id r h.budget with
  | .error e => .error e
  | .ok t => .ok (t, { h with tables := h.tables.insert id t, issued := h.issued + 1 })

/-- The refusal for a record that could not be read. -/
def refusalOfLoad : StoreFault → Refusal
  | .unknown _ => .noSuchMatch
  | e => .store e

/-- The table of a match, set up from the store if there is none yet. -/
def find (h : Hall) (id : MatchId) (s : Store) : Except Refusal Table × Hall × Store :=
  match h.tables.get? id with
  | some t => (.ok t, h, s)
  | none =>
    match s.load id h.budget with
    | (.error e, s) => (.error (refusalOfLoad e), h, s)
    | (.ok r, s) =>
      match h.setUp id r with
      | .error e => (.error e, h, s)
      | .ok (t, h) => (.ok t, h, s)

/-- Store a new match and set up its table. -/
def create (h : Hall) (r : MatchRecord) (s : Store) : Except Refusal Table × Hall × Store :=
  match s.create r h.budget with
  | (.error e, s) => (.error (.store e), h, s)
  | (.ok id, s) =>
    match h.setUp id r with
    | .error e => (.error e, h, s)
    | .ok (t, h) => (.ok t, h, s)

/-- Make a table's new state the one in use. -/
def update (h : Hall) (t : Table) : Hall := { h with tables := h.tables.insert t.id t }

/-- Clear away the table of a match. -/
def clear (h : Hall) (id : MatchId) : Hall := { h with tables := h.tables.erase id }

/-- Clear away a table whose match is over. -/
def release (h : Hall) (t : Table) : Hall :=
  if t.game.status = .closed then h.clear t.id else h

end Hall
end LiveChess
