import LiveChess.SortedMap
import LiveChess.Uuid

/-! # Identifiers

Matches and users are named by 128-bit names and ordered by them; connections are numbered. -/

namespace LiveChess

/-- The name of a match. -/
structure MatchId where
  uuid : Uuid
deriving DecidableEq, Repr

/-- The name of a user. -/
structure UserId where
  uuid : Uuid
deriving DecidableEq, Repr

/-- The number of a connection, unique among all connections ever made. -/
structure ConnectionId where
  number : Nat
deriving DecidableEq, Repr

/-- A connection and the user it belongs to. -/
structure Connection where
  id : ConnectionId
  user : UserId
deriving DecidableEq, Repr

instance : Ranked MatchId where
  rank m := m.uuid.bits.toNat
  rank_inj {a b} h := by
    obtain ⟨⟨a⟩⟩ := a
    obtain ⟨⟨b⟩⟩ := b
    simpa [BitVec.toNat_inj] using h

instance : Ranked UserId where
  rank u := u.uuid.bits.toNat
  rank_inj {a b} h := by
    obtain ⟨⟨a⟩⟩ := a
    obtain ⟨⟨b⟩⟩ := b
    simpa [BitVec.toNat_inj] using h

instance : Ranked ConnectionId where
  rank c := c.number
  rank_inj {a b} h := by
    obtain ⟨a⟩ := a
    obtain ⟨b⟩ := b
    exact congrArg ConnectionId.mk h

namespace MatchId

/-- The text of a match name. -/
def text (m : MatchId) : String := m.uuid.text

/-- The match name of a text. -/
def ofText? (text : String) : Option MatchId := (Uuid.ofText? text).map MatchId.mk

end MatchId

namespace UserId

/-- The text of a user name. -/
def text (u : UserId) : String := u.uuid.text

/-- The user name of a text. -/
def ofText? (text : String) : Option UserId := (Uuid.ofText? text).map UserId.mk

end UserId
end LiveChess
