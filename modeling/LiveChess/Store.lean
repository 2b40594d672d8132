import LiveChess.Fault

/-! # The store

The records of all matches. Every call has a time budget and may fail: because of an outage, which
says per call which ones fail and how, or because the budget is nothing at all. A call that fails
leaves the records as they are. The store names the matches it creates and counts the calls that
read or save a record, failing ones included. -/

namespace LiveChess

/-- Which store calls fail, and how. -/
structure Outage where
  load : MatchId → Option StoreFault
  save : MatchId → Option StoreFault
  create : Option StoreFault
  seated : UserId → Option StoreFault

/-- Every call works. -/
def Outage.none : Outage := ⟨fun _ => .none, fun _ => .none, .none, fun _ => .none⟩

/-- The records, the present outage, the supply of names and the calls counted so far. -/
structure Store where
  records : SortedMap MatchId MatchRecord
  outage : Outage
  supply : List MatchId
  created : Nat
  loads : Nat
  saves : Nat

namespace Store

/-- A store without records that names its matches from a list. -/
def new (supply : List MatchId) : Store := ⟨.empty, .none, supply, 0, 0, 0⟩

/-- Fail with the present outage, or for want of time. -/
def hindrance (outage : Option StoreFault) (budget : Duration) : Option StoreFault :=
  match outage with
  | some e => some e
  | none => if budget.nanos = 0 then some (.overdue budget) else none

/-- Read the record of a match. -/
def load (s : Store) (id : MatchId) (budget : Duration) : Except StoreFault MatchRecord × Store :=
  let counted := { s with loads := s.loads + 1 }
  match hindrance (s.outage.load id) budget with
  | some e => (.error e, counted)
  | none =>
    match s.records.get? id with
    | some r => (.ok r, counted)
    | none => (.error (.unknown id), counted)

/-- Replace the record of a match that has one. -/
def save (s : Store) (id : MatchId) (r : MatchRecord) (budget : Duration) :
    Except StoreFault Unit × Store :=
  let counted := { s with saves := s.saves + 1 }
  match hindrance (s.outage.save id) budget with
  | some e => (.error e, counted)
  | none =>
    if s.records.contains id then
      (.ok (), { counted with records := s.records.insert id r })
    else
      (.error (.unknown id), counted)

/-- The name of the next match: the next one supplied, then 4096 and the matches made so far. -/
def nextId (s : Store) : MatchId :=
  match s.supply with
  | id :: _ => id
  | [] => ⟨⟨BitVec.ofNat 128 (0x1000 + s.created + 1)⟩⟩

/-- Keep a new record under a name of its own. -/
def create (s : Store) (r : MatchRecord) (budget : Duration) : Except StoreFault MatchId × Store :=
  match hindrance s.outage.create budget with
  | some e => (.error e, s)
  | none =>
    (.ok s.nextId,
      { s with
        records := s.records.insert s.nextId r
        supply := s.supply.tail
        created := s.created + 1 })

/-- The matches in which a user holds a seat, ascending. -/
def seated (s : Store) (u : UserId) (budget : Duration) : Except StoreFault (List MatchId) :=
  match hindrance (s.outage.seated u) budget with
  | some e => .error e
  | none =>
    .ok ((s.records.entries.filter fun e => (e.2.seats.seatOf u).isSome).map (·.1))

/-- Put a record under a name, whatever the outage. -/
def seed (s : Store) (id : MatchId) (r : MatchRecord) : Store :=
  { s with records := s.records.insert id r }

end Store
end LiveChess
