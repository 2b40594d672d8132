import LiveChess.Proofs.CheckedGames
import LiveChess.Proofs.Courses

/-! # Requests on arrays

The handling of requests once more, by an arbiter whose tables keep their boards as arrays and whose
accesses, sums and texts may fail.  An arbiter is counted up to `n` (`Arbiter.Counted`) if every
record has at most `n` entries and every game is counted up to `n`; a request counts up by at most
one (`counted_handle`).  With less than `2 ^ 31` entries no request fails, and each is handled as it
is by the arbiter itself (`handle_arrays`). -/

namespace LiveChess

/-! ### An arbiter on arrays -/

/-- An arbiter whose tables keep their boards as arrays. -/
structure ArrayArbiter where
  tables : SortedMap MatchId ArrayTable
  budget : Duration
  issued : Nat
  store : Store
  watching : SortedMap UserId (SortedSet MatchId)

/-- What handling a request comes to. -/
structure ArrayHandled where
  answer : Answer
  sent : List Delivery
  state : ArrayArbiter

/-- Read the square that a request names. -/
def Checked.parse (text : String) : Checked (Except Refusal Square) := do
  let square ← ofText? text
  match square with
  | some s => pure (.ok s)
  | none => pure (.error (.badSquare text))

namespace ArrayArbiter

open Arbiter (tellRefusal broadcast moveNotices view seatsOf)

/-- Set up a table for a record, in place of one already there. -/
def setUp (a : ArrayArbiter) (id : MatchId) (r : MatchRecord) :
    Checked (Except Refusal ArrayTable × ArrayArbiter) := do
  let table ← ArrayTable.setUp a.issued id r a.budget
  match table with
  | .error e => pure (.error e, a)
  | .ok t => pure (.ok t, { a with tables := a.tables.insert id t, issued := a.issued + 1 })

/-- The table of a match, set up from the store if there is none yet. -/
def find (a : ArrayArbiter) (id : MatchId) :
    Checked (Except Refusal ArrayTable × ArrayArbiter) :=
  match a.tables.get? id with
  | some t => pure (.ok t, a)
  | none =>
    match a.store.load id a.budget with
    | (.error e, s) => pure (.error (Hall.refusalOfLoad e), { a with store := s })
    | (.ok r, s) => { a with store := s }.setUp id r

/-- Make a table's new state the one in use. -/
def update (a : ArrayArbiter) (t : ArrayTable) : ArrayArbiter :=
  { a with tables := a.tables.insert t.id t }

/-- Clear away the table of a match. -/
def clear (a : ArrayArbiter) (id : MatchId) : ArrayArbiter :=
  { a with tables := a.tables.erase id }

/-- Make a table's new state the one in use and clear it away if its match is over. -/
def settle (a : ArrayArbiter) (t : ArrayTable) : ArrayArbiter :=
  if t.game.status = .closed then (a.update t).clear t.id else a.update t

/-- Show one match to a connection. -/
def showOne (c : Connection) (a : ArrayArbiter) (id : MatchId) :
    Checked (List Delivery × ArrayArbiter) := do
  let (found, a) ← a.find id
  match found with
  | .error e => pure (tellRefusal c e, a)
  | .ok t => do
    let t := t.connect c
    let picture ← t.snapshot
    pure ([⟨c.id, .newBoard id picture⟩], a.settle t)

/-- Show matches to a connection, one after another. -/
def showAll (c : Connection) : List MatchId → ArrayArbiter → Checked (List Delivery × ArrayArbiter)
  | [], a => pure ([], a)
  | id :: ids, a => do
    let (first, a) ← showOne c a id
    let (rest, a) ← showAll c ids a
    pure (first ++ rest, a)

/-- A connection came up. -/
def connect (a : ArrayArbiter) (c : Connection) : Checked ArrayHandled :=
  match a.store.seated c.user a.budget with
  | .error e => pure ⟨.done, tellRefusal c (.store e), a⟩
  | .ok seated => do
    let (sent, a) ← showAll c (view seated ((a.watching.get? c.user).getD .empty)) a
    pure ⟨.done, sent, a⟩

/-- A connection went away. -/
def disconnect (a : ArrayArbiter) (opened : Connections) (c : Connection) : ArrayHandled :=
  let watching :=
    if (opened.ofUser c.user).isEmpty then a.watching.erase c.user else a.watching
  ⟨.done, [], { a with tables := a.tables.map fun _ t => t.disconnect c, watching := watching }⟩

/-- List the squares a man may go to. -/
def showMoves (a : ArrayArbiter) (c : Connection) (id : MatchId) (source : String) :
    Checked ArrayHandled := do
  let parsed ← Checked.parse source
  match parsed with
  | .error e => pure ⟨.done, tellRefusal c e, a⟩
  | .ok s => do
    let (found, a) ← a.find id
    match found with
    | .error e => pure ⟨.done, tellRefusal c e, a⟩
    | .ok t => do
      let squares ← t.game.movesFrom c.user s
      let sent :=
        match squares with
        | .ok squares => [⟨c.id, .validMoves id squares⟩]
        | .error e => tellRefusal c e
      pure ⟨.done, sent, a.settle t⟩

/-- Move a man. -/
def move (a : ArrayArbiter) (c : Connection) (id : MatchId) (source target : String) :
    Checked ArrayHandled := do
  let parsed ← Checked.parse source
  match parsed with
  | .error e => pure ⟨.done, tellRefusal c e, a⟩
  | .ok s => do
    let parsed ← Checked.parse target
    match parsed with
    | .error e => pure ⟨.done, tellRefusal c e, a⟩
    | .ok t => do
      let (found, a) ← a.find id
      match found with
      | .error e => pure ⟨.done, tellRefusal c e, a⟩
      | .ok table => do
        let (moved, table, store) ← table.move c.user s t a.store
        match moved with
        | .error e => pure ⟨.done, tellRefusal c e, { a with store := store }.settle table⟩
        | .ok o => do
          let table := table.connect c
          let picture ← table.snapshot
          let sent := (moveNotices id o picture).flatMap (broadcast table.followers.ids)
          let next := { a with store := store }.update table
          pure ⟨.done, sent, if o.checkmate then next.clear id else next⟩

/-- Take a seat. -/
def join (a : ArrayArbiter) (opened : Connections) (id : MatchId) (u : UserId) :
    Checked ArrayHandled := do
  let (found, a) ← a.find id
  match found with
  | .error e => pure ⟨.refused e, [], a⟩
  | .ok t =>
    match t.join u a.store with
    | (.error e, t, store) => pure ⟨.refused e, [], { a with store := store }.settle t⟩
    | (.ok _, t, store) => do
      let t := t.connectAll (opened.ofUser u)
      let picture ← t.snapshot
      pure ⟨.done, broadcast t.followers.ids (.playerJoined id picture),
        { a with store := store }.update t⟩

/-- Watch a match. -/
def watch (a : ArrayArbiter) (opened : Connections) (id : MatchId) (u : UserId) :
    Checked ArrayHandled := do
  let (found, a) ← a.find id
  match found with
  | .error e => pure ⟨.refused e, [], a⟩
  | .ok t => do
    let own := opened.ofUser u
    let t := t.connectAll own
    let watching :=
      if own.isEmpty then a.watching
      else a.watching.insert u (((a.watching.get? u).getD .empty).add id)
    let picture ← t.snapshot
    let sent := t.followers.ids.map fun c =>
      if c ∈ own.map (·.id) then ⟨c, .newBoard id picture⟩ else ⟨c, .newWatcher id u⟩
    pure ⟨.done, sent, { a with watching := watching }.settle t⟩

/-- Begin a match. -/
def create (a : ArrayArbiter) (opened : Connections) (creator : UserId) (color : Color)
    (opponent : Option UserId) : Checked ArrayHandled :=
  if opponent = some creator then
    pure ⟨.refused .alreadySeated, [], a⟩
  else
    let seats := seatsOf creator color opponent
    match a.store.create (.fresh seats) a.budget with
    | (.error e, s) => pure ⟨.refused (.store e), [], { a with store := s }⟩
    | (.ok id, s) => do
      let (table, a) ← { a with store := s }.setUp id (.fresh seats)
      match table with
      | .error e => pure ⟨.refused e, [], a⟩
      | .ok t => do
        let players := seats.white.toList ++ seats.black.toList
        let t := t.connectAll (players.flatMap opened.ofUser)
        let picture ← t.snapshot
        pure ⟨.created t.id, broadcast t.followers.ids (.newBoard t.id picture), a.update t⟩

/-- Handle one request while the given connections are open. -/
def handle (opened : Connections) (a : ArrayArbiter) : Request → Checked ArrayHandled
  | .connect c => a.connect c
  | .disconnect c => pure (a.disconnect opened c)
  | .showMoves c id source => a.showMoves c id source
  | .move c id source target => a.move c id source target
  | .join id u => a.join opened id u
  | .watch id u => a.watch opened id u
  | .create creator color opponent => a.create opened creator color opponent

end ArrayArbiter

/-! ### Counting entries -/

/-- Every record has at most so many entries. -/
def Store.Counted (n : Nat) (s : Store) : Prop :=
  ∀ id r, s.records.get? id = some r → r.log.length ≤ n

/-- Every record has at most so many entries, and every game has been counted up to as many. -/
structure Arbiter.Counted (n : Nat) (a : Arbiter) : Prop where
  records : a.store.Counted n
  tables : ∀ id t, a.hall.tables.get? id = some t → t.game.Counted n

namespace Arbiter

variable {a : Arbiter} {id : MatchId} {t : Table} {n k : Nat} {c : Connection}
  {opened : Connections} {β : Type}

theorem Counted.mono (h : a.Counted n) (hnk : n ≤ k) : a.Counted k :=
  ⟨fun id r hr => (h.records id r hr).trans hnk, fun id t ht => (h.tables id t ht).mono hnk⟩

theorem Finds.counted {x : Except Refusal Table × Arbiter} (hx : Finds a id x)
    (h : a.Counted n) : x.2.Counted n ∧ ∀ t, x.1 = .ok t → t.game.Counted n := by
  cases hx with
  | held t ht =>
      refine ⟨h, fun t' ht' => ?_⟩
      cases ht'
      exact h.tables id t ht
  | refused e hnone =>
      refine ⟨⟨h.records, h.tables⟩, fun t' ht' => ?_⟩
      cases ht'
  | loaded r g hnone hr hg =>
      have hgame : g.Counted n := (Game.counted_ofRecord hg).mono (h.records id r hr)
      refine ⟨⟨h.records, fun j t' ht' => ?_⟩, fun t' ht' => ?_⟩
      · rcases SortedMap.get?_insert_eq_some ht' with ⟨rfl, rfl⟩ | ⟨-, ht'⟩
        · exact hgame
        · exact h.tables j t' ht'
      · cases ht'
        exact hgame

theorem Counted.settle (h : a.Counted n) (ht : t.game.Counted n) : (a.settle t).Counted n := by
  refine ⟨?_, fun j t' ht' => ?_⟩
  · unfold Arbiter.settle
    exact h.records
  · rw [get?_settle] at ht'
    split_ifs at ht' with hj
    · cases ht'
      exact ht
    · exact h.tables j t' ht'

/-- What a table and its store are counted up to after acting. -/
theorem counted_attend (h : a.Counted n) (hnk : n ≤ k) (id : MatchId)
    (act : Table → Store → β × Table × Store)
    (hact : ∀ t s, t.game.Counted n → s.Counted n →
      (act t s).2.1.game.Counted k ∧ (act t s).2.2.Counted k) :
    (a.attend id act).2.Counted k := by
  have hfind := (a.find_finds id).counted h
  unfold attend
  generalize a.find id = x at hfind ⊢
  obtain ⟨e | t, a'⟩ := x
  · exact hfind.1.mono hnk
  · obtain ⟨ht, hs⟩ := hact t a'.store (hfind.2 t rfl) hfind.1.records
    have hstored : ({ a' with store := (act t a'.store).2.2 } : Arbiter).Counted k :=
      ⟨hs, fun j t' ht' => (hfind.1.tables j t' ht').mono hnk⟩
    exact hstored.settle ht

theorem counted_followAct (own : List Connection) (t : Table) (s : Store)
    (ht : t.game.Counted n) (hs : s.Counted n) :
    (followAct own t s).2.1.game.Counted n ∧ (followAct own t s).2.2.Counted n := by
  refine ⟨?_, hs⟩
  show (t.connectAll own).game.Counted n
  rw [Table.connectAll_game]
  exact ht

/-- A step of the game counts up by one and is saved as it is. -/
theorem counted_stepped {α : Type} {s : Store} {step : Except Refusal (α × Game)}
    {x : Except Refusal α × Table × Store} (hx : Table.Stepped t s step x)
    (ht : t.game.Counted n) (hs : s.Counted n)
    (hstep : ∀ y next, step = .ok (y, next) → next.Counted (n + 1)) :
    x.2.1.game.Counted (n + 1) ∧ x.2.2.Counted (n + 1) := by
  cases hx with
  | refused e saves =>
      exact ⟨ht.mono (Nat.le_succ n), fun id r hr => (hs id r hr).trans (Nat.le_succ n)⟩
  | done y next h =>
      have hnext := hstep y next h
      refine ⟨hnext, fun id r hr => ?_⟩
      rcases SortedMap.get?_insert_eq_some hr with ⟨-, rfl⟩ | ⟨-, hr⟩
      · exact hnext.log
      · exact (hs id r hr).trans (Nat.le_succ n)

theorem counted_moveAct (c : Connection) (source target : Square) (t : Table) (s : Store)
    (ht : t.game.Counted n) (hs : s.Counted n) :
    (moveAct c source target t s).2.1.game.Counted (n + 1) ∧
      (moveAct c source target t s).2.2.Counted (n + 1) := by
  have h := counted_stepped (t.move_steps c.user source target s) ht hs
    fun _ _ hstep => ht.move hstep
  unfold moveAct
  generalize t.move c.user source target s = x at h ⊢
  obtain ⟨e | o, t', s'⟩ := x <;> exact h

theorem counted_joinAct (own : List Connection) (u : UserId) (t : Table) (s : Store)
    (ht : t.game.Counted n) (hs : s.Counted n) :
    (joinAct own u t s).2.1.game.Counted (n + 1) ∧ (joinAct own u t s).2.2.Counted (n + 1) := by
  have h := counted_stepped (t.join_steps u s) ht hs
    fun _ _ hstep => (ht.join hstep).mono (Nat.le_succ n)
  unfold joinAct
  generalize t.join u s = x at h ⊢
  obtain ⟨e | seat, t', s'⟩ := x
  · exact h
  · refine ⟨?_, h.2⟩
    show (t'.connectAll own).game.Counted (n + 1)
    rw [Table.connectAll_game]
    exact h.1

theorem counted_showOne (h : a.Counted n) (c : Connection) (id : MatchId) :
    (showOne c a id).2.Counted n := by
  rw [state_showOne]
  exact counted_attend h (Nat.le_refl n) id _ (counted_followAct [c])

theorem counted_create (hk : a.hall.Keyed) (h : a.Counted n) (opened : Connections)
    (creator : UserId) (color : Color) (opponent : Option UserId) :
    (a.create opened creator color opponent).state.Counted n := by
  cases create_founded hk opened creator color opponent with
  | refused e hx =>
      rw [hx]
      exact h
  | founded answer distinct stands off watching issued =>
      have hnew : (a.newTable opened (seatsOf creator color opponent)).game.Counted n := by
        rw [newTable_game]
        exact (Game.counted_ofRecord (Game.ofRecord_fresh _)).mono (Nat.zero_le n)
      refine ⟨fun id r hr => ?_, fun id t ht => ?_⟩
      · by_cases hid : id = a.store.nextId
        · subst hid
          rw [stands.record] at hr
          cases hr
          exact hnew.log
        · rw [off.records id hid] at hr
          exact h.records id r hr
      · by_cases hid : id = a.store.nextId
        · subst hid
          rw [stands.table] at ht
          cases ht
          exact hnew
        · rw [off.tables id hid] at ht
          exact h.tables id t ht

/-- A request logs at most one move of a match. -/
theorem counted_handle (hk : a.hall.Keyed) (h : a.Counted n) (opened : Connections)
    (r : Request) : (a.handle opened r).state.Counted (n + 1) := by
  have hle : n ≤ n + 1 := Nat.le_succ n
  cases r with
  | connect c =>
      refine Counted.mono ?_ hle
      show (a.connect c).state.Counted n
      rw [state_connect]
      exact showAll_keeps (P := Counted n) (fun a id ha => counted_showOne ha c id) _ h
  | disconnect c =>
      refine ⟨fun id r hr => (h.records id r hr).trans hle, fun id t ht => ?_⟩
      rw [show (a.handle opened (.disconnect c)).state = (a.disconnect opened c).state from rfl,
        get?_disconnect] at ht
      obtain ⟨t', ht', rfl⟩ := Option.map_eq_some_iff.mp ht
      exact (h.tables id t' ht').mono hle
  | showMoves c id source =>
      show (a.showMoves c id source).state.Counted (n + 1)
      rcases a.state_showMoves c id source with hs | ⟨s, hs⟩
      · rw [hs]
        exact h.mono hle
      · rw [hs]
        exact (counted_attend h (Nat.le_refl n) id _ fun t s ht hs => ⟨ht, hs⟩).mono hle
  | move c id source target =>
      show (a.move c id source target).state.Counted (n + 1)
      rcases state_move hk c id source target with hs | ⟨s, s', hs⟩
      · rw [hs]
        exact h.mono hle
      · rw [hs]
        exact counted_attend h hle id _ (counted_moveAct c s s')
  | join id u =>
      show (a.join opened id u).state.Counted (n + 1)
      rw [state_join]
      exact counted_attend h hle id _ (counted_joinAct (opened.ofUser u) u)
  | watch id u =>
      obtain ⟨watching, hs⟩ := a.state_watch opened id u
      show (a.watch opened id u).state.Counted (n + 1)
      rw [hs]
      have hact := (counted_attend h (Nat.le_refl n) id _
        (counted_followAct (opened.ofUser u))).mono hle
      exact ⟨hact.records, hact.tables⟩
  | create creator color opponent =>
      exact (counted_create hk h opened creator color opponent).mono hle

/-! ### The arbiter on arrays -/

/-- The arbiter with its boards as arrays. -/
def arrays (a : Arbiter) : ArrayArbiter :=
  ⟨a.hall.tables.map fun _ t => t.arrays, a.hall.budget, a.hall.issued, a.store, a.watching⟩

end Arbiter

/-- What handling a request comes to, with its boards as arrays. -/
def Handled.arrays (x : Handled) : ArrayHandled := ⟨x.answer, x.sent, x.state.arrays⟩

namespace Arbiter

variable {a : Arbiter} {n : Nat}

theorem update_arrays (hall : Hall) (store : Store)
    (watching : SortedMap UserId (SortedSet MatchId)) (t : Table) :
    (⟨hall.update t, store, watching⟩ : Arbiter).arrays =
      (⟨hall, store, watching⟩ : Arbiter).arrays.update t.arrays := by
  simp only [arrays, Hall.update, SortedMap.map_insert]
  rfl

theorem clear_arrays (hall : Hall) (store : Store)
    (watching : SortedMap UserId (SortedSet MatchId)) (id : MatchId) :
    (⟨hall.clear id, store, watching⟩ : Arbiter).arrays =
      (⟨hall, store, watching⟩ : Arbiter).arrays.clear id := by
  simp only [arrays, Hall.clear, SortedMap.map_erase]
  rfl

theorem settle_arrays (a : Arbiter) (t : Table) :
    (a.settle t).arrays = a.arrays.settle t.arrays := by
  unfold ArrayArbiter.settle
  rw [show t.arrays.game.status = t.game.status from rfl]
  split_ifs with hc
  · rw [settle_of_closed a hc, clear_arrays, update_arrays]
    rfl
  · rw [settle_of_open a hc, update_arrays]

theorem setUp_arrays (a : Arbiter) (id : MatchId) {r : MatchRecord} (h : r.log.length < 2 ^ 31) :
    a.arrays.setUp id r = .ok (match a.hall.setUp id r with
      | .error e => (.error e, a.arrays)
      | .ok (t, hall) => (.ok t.arrays, ({ a with hall := hall } : Arbiter).arrays)) := by
  unfold ArrayArbiter.setUp Hall.setUp
  rw [show a.arrays.issued = a.hall.issued from rfl, show a.arrays.budget = a.hall.budget from rfl,
    Table.setUp_arrays h, Checked.ok_bind]
  cases Table.setUp a.hall.issued id r a.hall.budget with
  | error e => rfl
  | ok t =>
      simp only [Except.map, arrays, SortedMap.map_insert]
      rfl

theorem find_arrays (h : a.Counted n) (hn : n < 2 ^ 31) (id : MatchId) :
    a.arrays.find id = .ok ((a.find id).1.map Table.arrays, (a.find id).2.arrays) := by
  unfold ArrayArbiter.find find Hall.find
  rw [show a.arrays.tables.get? id = (a.hall.tables.get? id).map Table.arrays from
    SortedMap.get?_map _ _ _]
  cases ht : a.hall.tables.get? id with
  | some t => rfl
  | none =>
      show (match a.store.load id a.hall.budget with
        | (.error e, s) => _
        | (.ok r, s) => _) = _
      unfold Store.load
      simp only
      cases Store.hindrance (a.store.outage.load id) a.hall.budget with
      | some e => rfl
      | none =>
          simp only
          cases hr : a.store.records.get? id with
          | none => rfl
          | some r =>
              have hlog : r.log.length < 2 ^ 31 := (h.records id r hr).trans_lt hn
              let read : Arbiter := { a with store := { a.store with loads := a.store.loads + 1 } }
              simp only
              show read.arrays.setUp id r = _
              rw [setUp_arrays read id hlog]
              cases a.hall.setUp id r <;> rfl

/-! ### Requests on arrays -/

theorem parse_ok (text : String) : Checked.parse text = .ok (Square.parse text) := by
  rw [Checked.parse, Checked.ofText?_ok, Checked.ok_bind, Square.parse]
  cases Square.ofText? text <;> rfl

theorem showOne_arrays (h : a.Counted n) (hn : n < 2 ^ 31) (c : Connection) (id : MatchId) :
    ArrayArbiter.showOne c a.arrays id = .ok ((showOne c a id).1, (showOne c a id).2.arrays) := by
  have hfind := (a.find_finds id).counted h
  rw [ArrayArbiter.showOne, find_arrays h hn, Checked.ok_bind, showOne]
  generalize a.find id = x at hfind ⊢
  obtain ⟨e | t, a'⟩ := x
  · rfl
  · have hroomy : (t.connect c).game.board.Roomy := (hfind.2 t rfl).roomy hn
    have hpicture : (t.arrays.connect c).snapshot = .ok (t.connect c).snapshot :=
      Table.snapshot_arrays hroomy
    simp only [Except.map, hpicture, Checked.ok_bind, Checked.pure_eq_ok, settle_arrays]
    rfl

theorem showAll_arrays (h : a.Counted n) (hn : n < 2 ^ 31) (c : Connection) (ids : List MatchId) :
    ArrayArbiter.showAll c ids a.arrays =
      .ok ((showAll c ids a).1, (showAll c ids a).2.arrays) := by
  induction ids generalizing a with
  | nil => rfl
  | cons id ids ih =>
      simp only [ArrayArbiter.showAll, showOne_arrays h hn, ih (counted_showOne h c id),
        Checked.ok_bind, Checked.pure_eq_ok]
      rfl

theorem connect_arrays (h : a.Counted n) (hn : n < 2 ^ 31) (c : Connection) :
    a.arrays.connect c = .ok (a.connect c).arrays := by
  unfold ArrayArbiter.connect connect Hall.seated
  show (match a.store.seated c.user a.hall.budget with
    | .error e => _
    | .ok seated => _) = _
  cases a.store.seated c.user a.hall.budget with
  | error e => rfl
  | ok ids =>
      show (ArrayArbiter.showAll c (view ids (a.watched c.user)) a.arrays >>= _) = _
      rw [showAll_arrays h hn, Checked.ok_bind]
      rfl

theorem disconnect_arrays (a : Arbiter) (opened : Connections) (c : Connection) :
    a.arrays.disconnect opened c = (a.disconnect opened c).arrays := by
  simp only [ArrayArbiter.disconnect, disconnect, Handled.arrays, arrays, SortedMap.map_map]
  rfl

theorem showMoves_arrays (h : a.Counted n) (hn : n < 2 ^ 31) (c : Connection) (id : MatchId)
    (source : String) : a.arrays.showMoves c id source = .ok (a.showMoves c id source).arrays := by
  rw [ArrayArbiter.showMoves, parse_ok, Checked.ok_bind, showMoves]
  cases Square.parse source with
  | error e => rfl
  | ok s =>
      have hfind := (a.find_finds id).counted h
      simp only [find_arrays h hn, Checked.ok_bind]
      generalize a.find id = x at hfind ⊢
      obtain ⟨e | t, a'⟩ := x
      · rfl
      · have hmoves : t.arrays.game.movesFrom c.user s = .ok (t.game.movesFrom c.user s) :=
          Game.movesFrom_arrays ((hfind.2 t rfl).roomy hn) c.user s
        show (t.arrays.game.movesFrom c.user s >>= _) = _
        rw [hmoves, Checked.ok_bind]
        exact congrArg (fun state => Except.ok (⟨.done, _, state⟩ : ArrayHandled))
          (a'.settle_arrays t).symm

theorem watch_arrays (h : a.Counted n) (hn : n < 2 ^ 31) (opened : Connections) (id : MatchId)
    (u : UserId) : a.arrays.watch opened id u = .ok (a.watch opened id u).arrays := by
  have hfind := (a.find_finds id).counted h
  rw [ArrayArbiter.watch, find_arrays h hn, Checked.ok_bind, watch]
  generalize a.find id = x at hfind ⊢
  obtain ⟨e | t, a'⟩ := x
  · rfl
  · have hroomy : (t.connectAll (opened.ofUser u)).game.board.Roomy := by
      rw [Table.connectAll_game]
      exact (hfind.2 t rfl).roomy hn
    simp only [Except.map, Table.connectAll_arrays, Table.snapshot_arrays hroomy, Checked.ok_bind,
      Checked.pure_eq_ok, Handled.arrays, settle_arrays]
    rfl

theorem join_arrays (h : a.Counted n) (hn : n + 1 < 2 ^ 31) (opened : Connections) (id : MatchId)
    (u : UserId) : a.arrays.join opened id u = .ok (a.join opened id u).arrays := by
  have hfind := (a.find_finds id).counted h
  rw [ArrayArbiter.join, find_arrays h (by omega), Checked.ok_bind, join]
  generalize a.find id = x at hfind ⊢
  obtain ⟨e | t, a'⟩ := x
  · rfl
  · have hstep := counted_stepped (t.join_steps u a'.store) (hfind.2 t rfl) hfind.1.records
      fun _ _ hstep => ((hfind.2 t rfl).join hstep).mono (Nat.le_succ n)
    simp only [Except.map]
    rw [show a'.arrays.store = a'.store from rfl, Table.join_arrays]
    generalize t.join u a'.store = y at hstep ⊢
    obtain ⟨e | seat, t', s'⟩ := y
    · simp only [Table.onArrays, Handled.arrays, settle_arrays]
      rfl
    · have hroomy : (t'.connectAll (opened.ofUser u)).game.board.Roomy := by
        rw [Table.connectAll_game]
        exact hstep.1.roomy hn
      simp only [Table.onArrays, Table.connectAll_arrays, Table.snapshot_arrays hroomy,
        Checked.ok_bind, Checked.pure_eq_ok, Handled.arrays, update_arrays]
      rfl

theorem move_arrays (h : a.Counted n) (hn : n + 1 < 2 ^ 31) (c : Connection) (id : MatchId)
    (source target : String) :
    a.arrays.move c id source target = .ok (a.move c id source target).arrays := by
  rw [ArrayArbiter.move, parse_ok, Checked.ok_bind, move]
  cases Square.parse source with
  | error e => rfl
  | ok s =>
      simp only [parse_ok, Checked.ok_bind]
      cases Square.parse target with
      | error e => rfl
      | ok s' =>
          have hfind := (a.find_finds id).counted h
          have hn' : n < 2 ^ 31 := by omega
          simp only [find_arrays h hn', Checked.ok_bind]
          generalize a.find id = x at hfind ⊢
          obtain ⟨e | t, a'⟩ := x
          · rfl
          · have ht := hfind.2 t rfl
            have hstep := counted_stepped (t.move_steps c.user s s' a'.store) ht hfind.1.records
              fun _ _ hstep => ht.move hstep
            simp only [Except.map]
            rw [show a'.arrays.store = a'.store from rfl, Table.move_arrays ht hn, Checked.ok_bind]
            generalize t.move c.user s s' a'.store = y at hstep ⊢
            obtain ⟨e | o, t', store⟩ := y
            · simp only [Table.onArrays, Handled.arrays, settle_arrays]
              rfl
            · have hroomy : (t'.connect c).game.board.Roomy := hstep.1.roomy hn
              have hpicture : (t'.arrays.connect c).snapshot = .ok (t'.connect c).snapshot :=
                Table.snapshot_arrays hroomy
              simp only [Table.onArrays, hpicture, Checked.ok_bind, Checked.pure_eq_ok,
                Handled.arrays]
              cases o.checkmate with
              | false =>
                  simp only [if_neg Bool.false_ne_true, update_arrays]
                  rfl
              | true =>
                  simp only [if_true, clear_arrays, update_arrays]
                  rfl

theorem create_arrays (a : Arbiter) (opened : Connections) (creator : UserId) (color : Color)
    (opponent : Option UserId) :
    a.arrays.create opened creator color opponent =
      .ok (a.create opened creator color opponent).arrays := by
  unfold ArrayArbiter.create create
  split_ifs with hopp
  · rfl
  · have hstore : a.arrays.store.create = a.store.create := rfl
    have hbudget : a.arrays.budget = a.hall.budget := rfl
    generalize seatsOf creator color opponent = seats
    simp only [hstore, hbudget, Hall.create]
    generalize a.store.create (.fresh seats) a.hall.budget = x
    obtain ⟨e | id, s⟩ := x
    · rfl
    · let stored : Arbiter := { a with store := s }
      have hlog : (MatchRecord.fresh seats).log.length < 2 ^ 31 := Nat.two_pow_pos 31
      have hroomy : (Game.opening seats).board.Roomy :=
        (Game.counted_ofRecord (Game.ofRecord_fresh seats)).roomy hlog
      show (stored.arrays.setUp id (.fresh seats) >>= _) = _
      rw [setUp_arrays stored id hlog, Checked.ok_bind]
      simp only [stored, Hall.setUp, Table.setUp, Game.ofRecord_fresh]
      generalize ht : (⟨id, a.hall.issued, a.hall.budget, .opening seats, .empty⟩ : Table) = t
      generalize seats.white.toList ++ seats.black.toList = players
      have hpicture : (t.connectAll (players.flatMap opened.ofUser)).game.board.Roomy := by
        rw [Table.connectAll_game, ← ht]
        exact hroomy
      simp only [Table.connectAll_arrays, Table.snapshot_arrays hpicture, Checked.ok_bind,
        Checked.pure_eq_ok, Handled.arrays, update_arrays]
      rfl

/-- With less than `2 ^ 31` entries every request is handled alike. -/
theorem handle_arrays (h : a.Counted n) (hn : n + 1 < 2 ^ 31) (opened : Connections)
    (r : Request) : ArrayArbiter.handle opened a.arrays r = .ok (a.handle opened r).arrays := by
  have hn' : n < 2 ^ 31 := by omega
  cases r with
  | connect c => exact connect_arrays h hn' c
  | disconnect c => exact congrArg Except.ok (disconnect_arrays a opened c)
  | showMoves c id source => exact showMoves_arrays h hn' c id source
  | move c id source target => exact move_arrays h hn c id source target
  | join id u => exact join_arrays h hn opened id u
  | watch id u => exact watch_arrays h hn' opened id u
  | create creator color opponent => exact create_arrays a opened creator color opponent

end Arbiter
end LiveChess
