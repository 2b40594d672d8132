import LiveChess.Hall

/-! # Tables in hand

Somebody may hold a table while the hall clears it away. It then stays in play for those who hold
it, and a table that the hall sets up anew for the match is another one: tables are told apart by
their serial numbers. -/

namespace LiveChess

/-- A table in hand. -/
structure Handle where
  id : MatchId
  serial : Nat
deriving DecidableEq, Repr

/-- The handle of a table. -/
def Table.handle (t : Table) : Handle := ⟨t.id, t.serial⟩

/-- A hall and the tables that it no longer has but somebody may hold. -/
structure Held where
  hall : Hall
  cleared : List Table

namespace Held

/-- Nothing in hand. -/
def ofHall (h : Hall) : Held := ⟨h, []⟩

/-- The table of a handle among the tables of the hall. -/
def inHall (h : Hall) (k : Handle) : Option Table :=
  (h.tables.get? k.id).filter fun t => t.serial = k.serial

/-- The table of a handle. -/
def table? (h : Held) (k : Handle) : Option Table :=
  match inHall h.hall k with
  | some t => some t
  | none => h.cleared.find? fun t => t.serial = k.serial

/-- Make a table's new state the one in use, wherever the table is. -/
def update (h : Held) (t : Table) : Held :=
  if (inHall h.hall t.handle).isSome then { h with hall := h.hall.update t }
  else { h with cleared := h.cleared.map fun old => if old.serial = t.serial then t else old }

/-- Go on with a later state of the hall; tables it no longer has stay in hand. -/
def adopt (h : Held) (next : Hall) : Held :=
  ⟨next, h.cleared ++ h.hall.tables.values.filter fun t => (inHall next t.handle).isNone⟩

end Held
end LiveChess
