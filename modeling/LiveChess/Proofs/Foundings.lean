import LiveChess.Proofs.LifeCycle
import LiveChess.Proofs.Watching

/-! # Founding a match

A match is founded in two steps: its record is stored under a new name, and a table is set up from
the same record.  For records that make a board the second step cannot fail, and founding is all or
nothing (`Ending`).  Any other record stays behind in the store (`Stray`): its players' matches
list it, and no table can be set up for it. -/

namespace LiveChess

/-- A board can be made of the record's pieces and log. -/
def MatchRecord.Rebuilds (r : MatchRecord) : Prop := ∃ g, Game.ofRecord r = .ok g

namespace MatchRecord

theorem rebuilds_fresh (seats : Seats) : (fresh seats).Rebuilds := ⟨_, Game.ofRecord_fresh seats⟩

theorem rebuilds_of_played {g : Game} (hg : g.Played) : g.toRecord.Rebuilds := ⟨g, hg.ofRecord⟩

/-- A record without a board is refused as corrupt, because of one of its pieces or squares. -/
theorem ofRecord_of_not_rebuilds {r : MatchRecord} (hr : ¬ r.Rebuilds) :
    ∃ f : RecordFault, Game.ofRecord r = .error (.store (.corrupt f.message)) := by
  cases h : Game.ofRecord r with
  | ok g => exact absurd ⟨g, h⟩ hr
  | error e =>
      unfold Game.ofRecord at h
      simp only at h
      split at h
      · cases h
      · rename_i f hf
        cases h
        exact ⟨f, rfl⟩

end MatchRecord

namespace Hall

variable {h h' : Hall} {s s' : Store} {r : MatchRecord} {t : Table}

/-- The match has its record and its table under one new name, the table has the record's game and
nobody follows it, and all other records and tables are as before. -/
structure Founded (r : MatchRecord) (h : Hall) (s : Store) (t : Table) (h' : Hall) (s' : Store) :
    Prop where
  named : t.id = s.nextId
  stored : s'.records.get? t.id = some r
  cached : h'.tables.get? t.id = some t
  game : Game.ofRecord r = .ok t.game
  unfollowed : t.followers = .empty
  records_else : ∀ m, m ≠ t.id → s'.records.get? m = s.records.get? m
  tables_else : ∀ m, m ≠ t.id → h'.tables.get? m = h.tables.get? m

/-- All or nothing: the match is founded, or it is refused and hall and store are as before. -/
inductive Ending (r : MatchRecord) (h : Hall) (s : Store) :
    Except Refusal Table × Hall × Store → Prop where
  | founded (t : Table) (h' : Hall) (s' : Store) (is : Founded r h s t h' s') :
      Ending r h s (.ok t, h', s')
  | refused (e : Refusal) : Ending r h s (.error e, h, s)

/-- A refused record has stayed in the store, and all other records are as before. From then on the
matches of its players list it, and no table is set up for it even if the store works. -/
structure Stray (r : MatchRecord) (h : Hall) (s : Store) (m : MatchId) (e : Refusal) (s' : Store) :
    Prop where
  named : m = s.nextId
  stored : s'.records.get? m = some r
  records_else : ∀ m', m' ≠ m → s'.records.get? m' = s.records.get? m'
  outage : s'.outage = s.outage
  listed : ∀ (o : Outage) (u : UserId) ids, h.seated u { s' with outage := o } = .ok ids →
    (m ∈ ids ↔ (r.seats.seatOf u).isSome = true)
  lost : h.tables.get? m = none → ∀ o : Outage, o.load m = none → h.budget.nanos ≠ 0 →
    (h.find m { s' with outage := o }).1 = .error e

/-- The store after it has taken in a record. -/
theorem create_of_hindrance_none (hs : Store.hindrance s.outage.create h.budget = none) :
    ∃ s', s.create r h.budget = (.ok s.nextId, s') ∧
      s'.records = s.records.insert s.nextId r ∧ s'.outage = s.outage := by
  unfold Store.create
  rw [hs]
  exact ⟨_, rfl, rfl, rfl⟩

/-- If the store call fails, hall and store are as before. -/
theorem create_of_hindrance {e : StoreFault}
    (hs : Store.hindrance s.outage.create h.budget = some e) :
    h.create r s = (.error (.store e), h, s) := by
  unfold create Store.create
  rw [hs]

/-- If the store takes in a record that makes a board, the match is founded. -/
theorem founded_of_rebuilds (hs : Store.hindrance s.outage.create h.budget = none)
    (hr : r.Rebuilds) :
    ∃ t h' s', h.create r s = (.ok t, h', s') ∧ Founded r h s t h' s' := by
  obtain ⟨s', hcreate, hrecords, -⟩ := create_of_hindrance_none (r := r) hs
  obtain ⟨g, hg⟩ := hr
  have hset : h.setUp s.nextId r =
      .ok (⟨s.nextId, h.issued, h.budget, g, .empty⟩,
        { h with
          tables := h.tables.insert s.nextId ⟨s.nextId, h.issued, h.budget, g, .empty⟩
          issued := h.issued + 1 }) := by
    unfold setUp Table.setUp
    rw [hg]
  refine ⟨_, _, s', by unfold create; rw [hcreate]; simp only; rw [hset], ?_⟩
  exact {
    named := rfl
    stored := by rw [hrecords]; exact SortedMap.get?_insert_self _ _ _
    cached := SortedMap.get?_insert_self _ _ _
    game := hg
    unfollowed := rfl
    records_else := fun m hm => by rw [hrecords]; exact SortedMap.get?_insert_of_ne _ _ hm
    tables_else := fun m hm => SortedMap.get?_insert_of_ne _ _ hm }

/-- If the store takes in a record that makes no board, it stays there. -/
theorem stray_of_not_rebuilds (hs : Store.hindrance s.outage.create h.budget = none)
    {e : Refusal} (hr : Game.ofRecord r = .error e) :
    ∃ s', h.create r s = (.error e, h, s') ∧ Stray r h s s.nextId e s' := by
  obtain ⟨s', hcreate, hrecords, houtage⟩ := create_of_hindrance_none (r := r) hs
  have hset : ∀ id, h.setUp id r = .error e := by
    intro id
    unfold setUp Table.setUp
    rw [hr]
  have hstored : s'.records.get? s.nextId = some r := by
    rw [hrecords]
    exact SortedMap.get?_insert_self _ _ _
  refine ⟨s', by unfold create; rw [hcreate]; simp only; rw [hset], ?_⟩
  refine
    { named := rfl
      stored := hstored
      records_else := fun m hm => by rw [hrecords]; exact SortedMap.get?_insert_of_ne _ _ hm
      outage := houtage
      listed := fun o u ids hids => ?_
      lost := fun hnone o ho hbudget => ?_ }
  · unfold seated at hids
    cases hseated : ({ s' with outage := o } : Store).seated u h.budget with
    | error e =>
        rw [hseated] at hids
        cases hids
    | ok ids' =>
        rw [hseated] at hids
        cases hids
        rw [Arbiter.mem_seated hseated]
        simp only [hstored, Option.some.injEq, exists_eq_left']
  · unfold find Store.load Store.hindrance
    simp only [hnone, ho, if_neg hbudget, hstored, hset]

/-- **Founding a match is all or nothing, for every record that makes a board.** Whatever the hall
and the store are and whichever store calls fail: if the call to store the record fails, its fault
is passed on; if it works and a board can be made of the record, the match is founded.  So it is
with every new match and every record of a played one.  The record is stored before it is read: one
that the store takes in and no board can be made of is refused as corrupt, without a table, and
stays behind. -/
theorem ending_of_create (h : Hall) (r : MatchRecord) (s : Store) :
    (∀ e, Store.hindrance s.outage.create h.budget = some e →
      h.create r s = (.error (.store e), h, s)) ∧
    (Store.hindrance s.outage.create h.budget = none → r.Rebuilds →
      ∃ t h' s', h.create r s = (.ok t, h', s') ∧ Founded r h s t h' s') ∧
    (r.Rebuilds → Ending r h s (h.create r s)) ∧
    (∀ seats, (MatchRecord.fresh seats).Rebuilds) ∧
    (∀ g : Game, g.Played → g.toRecord.Rebuilds) ∧
    (Store.hindrance s.outage.create h.budget = none → ¬ r.Rebuilds →
      ∃ (f : RecordFault) (s' : Store),
        h.create r s = (.error (.store (.corrupt f.message)), h, s') ∧
        Stray r h s s.nextId (.store (.corrupt f.message)) s') := by
  refine ⟨fun e he => create_of_hindrance he, founded_of_rebuilds, fun hr => ?_,
    MatchRecord.rebuilds_fresh, fun g => MatchRecord.rebuilds_of_played, fun hs hr => ?_⟩
  · cases hs : Store.hindrance s.outage.create h.budget with
    | some e =>
        rw [create_of_hindrance hs]
        exact .refused _
    | none =>
        obtain ⟨t, h', s', hcreate, hfounded⟩ := founded_of_rebuilds hs hr
        rw [hcreate]
        exact .founded t h' s' hfounded
  · obtain ⟨f, hf⟩ := MatchRecord.ofRecord_of_not_rebuilds hr
    obtain ⟨s', hcreate, hstray⟩ := stray_of_not_rebuilds hs hf
    exact ⟨f, s', hcreate, hstray⟩

/-- A new match is founded while the store works; while it does not, hall and store stay as they
are. -/
theorem ending_of_create_fresh :
    let m : MatchId := ⟨⟨7⟩⟩
    let alice : UserId := ⟨⟨1⟩⟩
    let r := MatchRecord.fresh ⟨some alice, none⟩
    let h := new ⟨1000⟩
    let store := Store.new [m]
    let down : Store := { store with outage := { Outage.none with create := some (.unknown m) } }
    Store.hindrance store.outage.create h.budget = none ∧ r.Rebuilds ∧
      (∃ t h' s', h.create r store = (.ok t, h', s') ∧ Founded r h store t h' s') ∧
      Store.hindrance down.outage.create h.budget = some (.unknown m) ∧
      h.create r down = (.error (.store (.unknown m)), h, down) := by
  intro m alice r h store down
  have hworks : Store.hindrance store.outage.create h.budget = none := rfl
  have hfails : Store.hindrance down.outage.create h.budget = some (.unknown m) := rfl
  obtain ⟨-, hfounded, -, hfresh, -, -⟩ := ending_of_create h r store
  obtain ⟨hrefused, -⟩ := ending_of_create h r down
  exact ⟨hworks, hfresh _, hfounded hworks (hfresh _), hfails, hrefused _ hfails⟩

/-- A record with a pawn off the board is neither founded nor refused without a trace: it is
refused, and yet it stays in the store, where its player's matches list it and no table can be set
up for it. -/
theorem not_ending_of_pawn_off_board :
    let m : MatchId := ⟨⟨7⟩⟩
    let alice : UserId := ⟨⟨1⟩⟩
    let r : MatchRecord :=
      ⟨⟨some alice, none⟩, .white, [], [⟨.white, .pawn, 9, 9⟩], .waiting, none⟩
    let h := new ⟨1000⟩
    let corrupt : Refusal := .store (.corrupt "piece outside the board at 9:9")
    let x := h.create r (.new [m])
    ¬ Ending r h (.new [m]) x ∧ x.1 = .error corrupt ∧ x.2.2.records.get? m = some r ∧
      x.2.1.seated alice x.2.2 = .ok [m] ∧ (x.2.1.find m x.2.2).1 = .error corrupt := by
  intro m alice r h corrupt x
  have hr : Game.ofRecord r = .error corrupt := by decide +kernel
  have hseated : x.2.1.seated alice x.2.2 = .ok [m] := by decide +kernel
  obtain ⟨s', hcreate, hstray⟩ := stray_of_not_rebuilds (h := h) (s := .new [m]) rfl hr
  have hx : x = (.error corrupt, h, s') := hcreate
  have houtage : s'.outage.load m = none := congrArg (fun o : Outage => o.load m) hstray.outage
  have hlost : (h.find m s').1 = .error corrupt :=
    hstray.lost rfl s'.outage houtage (Nat.succ_ne_zero _)
  rw [hx] at hseated ⊢
  refine ⟨fun hending => ?_, rfl, hstray.stored, hseated, hlost⟩
  cases hending with
  | refused e => exact nomatch hstray.stored

end Hall
end LiveChess
