/-! # The life of a match

A match waits for its second player, is then under way and is closed at checkmate. The fourth
status, rejected, is only ever read from a record: no step leads there or away from it. -/

namespace LiveChess

/-- Where a match stands in its life. -/
inductive Status where
  | waiting
  | rejected
  | underway
  | closed
deriving DecidableEq, Repr

namespace Status

instance : Inhabited Status := ⟨waiting⟩

/-- The two steps of a life. -/
def canAdvanceTo : Status → Status → Bool
  | waiting, underway => true
  | underway, closed => true
  | _, _ => false

/-- Take a step if it is one, and stay otherwise. -/
def advance (s next : Status) : Status := if s.canAdvanceTo next then next else s

/-- The name of a status. -/
def name : Status → String
  | waiting => "waiting"
  | rejected => "rejected"
  | underway => "open"
  | closed => "closed"

/-- The status of a name. -/
def ofName? : String → Option Status
  | "waiting" => some waiting
  | "rejected" => some rejected
  | "open" => some underway
  | "closed" => some closed
  | _ => none

theorem ofName?_name (s : Status) : ofName? s.name = some s := by
  cases s <;> rfl

end Status
end LiveChess
