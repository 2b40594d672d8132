import LiveChess.Ident

/-! # Connections by user

A user may hold several connections at once. The connections that are open, and those that follow
one match, are kept by user; a user whose last connection goes is forgotten. -/

namespace LiveChess

/-- Sets of connections, one per user. -/
structure Connections where
  byUser : SortedMap UserId (SortedSet ConnectionId)

namespace Connections

/-- No connections. -/
def empty : Connections := ⟨.empty⟩

/-- The connection numbers of a user. -/
def numbersOf (cs : Connections) (u : UserId) : SortedSet ConnectionId :=
  (cs.byUser.get? u).getD .empty

/-- The connections of a user. -/
def ofUser (cs : Connections) (u : UserId) : List Connection :=
  (cs.numbersOf u).keys.map fun id => ⟨id, u⟩

/-- The connection is one of them. -/
def contains (cs : Connections) (c : Connection) : Bool := (cs.numbersOf c.user).contains c.id

/-- Add a connection. -/
def insert (cs : Connections) (c : Connection) : Connections :=
  ⟨cs.byUser.insert c.user ((cs.numbersOf c.user).add c.id)⟩

/-- Remove a connection, and its user with the last one. -/
def erase (cs : Connections) (c : Connection) : Connections :=
  match cs.byUser.get? c.user with
  | none => cs
  | some ids =>
    let rest := ids.erase c.id
    if rest.isEmpty then ⟨cs.byUser.erase c.user⟩ else ⟨cs.byUser.insert c.user rest⟩

/-- Remove a connection, and say whether it was one of them. -/
def remove (cs : Connections) (c : Connection) : Bool × Connections :=
  match cs.byUser.get? c.user with
  | none => (false, cs)
  | some ids => (ids.contains c.id, cs.erase c)

/-- The connection numbers, user by user. -/
def ids (cs : Connections) : List ConnectionId := cs.byUser.values.flatMap (·.keys)

/-- The users, ascending. -/
def users (cs : Connections) : List UserId := cs.byUser.keys

end Connections
end LiveChess
