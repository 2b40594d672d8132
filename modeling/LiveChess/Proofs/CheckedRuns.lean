import LiveChess.Proofs.CheckedRequests
import LiveChess.Proofs.MatchRun
import LiveChess.Wire.Notice

/-! # No request and no record makes the rules fail

A request is met with an answer and with notices, which go out as JSON; what of that is the text of
a square may fail as well (`Checked.json`).  It does not, since every square that is written out is
one that was read before or one that a man may go to (`legible_handle`).  So an arbiter that starts
on any records of less than `2 ^ 30` entries each handles any less than `2 ^ 30` requests without
failing, and with the same replies as the arbiter on boards; and so does a table that is asked
directly, also about squares off the board (`rules_never_fail`). -/

namespace LiveChess

/-! ### Squares in replies -/

/-- The squares that a notice writes out are on the board. -/
def Notice.Legible : Notice → Prop
  | .validMoves _ squares => ∀ s ∈ squares, s.OnBoard
  | .pieceMoved _ s t => s.OnBoard ∧ t.OnBoard
  | .refused e => e.Legible
  | _ => True

namespace Checked

/-- The wording of a refusal. -/
def message : Refusal → Checked String
  | .illegalMove s t => do
    let source ← text s
    let target ← text t
    pure ("illegal move from " ++ source ++ " to " ++ target)
  | e => pure e.message

/-- A notice as JSON. -/
def json : Notice → Checked Json
  | .validMoves id squares => do
    let texts ← squares.mapM text
    pure (Notice.news "chess-valid-moves" id (.arr (texts.map .str)))
  | .pieceMoved id s t => do
    let source ← text s
    let target ← text t
    pure (Notice.news "chess-move-piece" id (.obj [("from", .str source), ("to", .str target)]))
  | .refused e => do
    let wording ← message e
    pure (Notice.envelope "error-msg" (messageToJson wording))
  | n => pure n.toJson

theorem message_ok {e : Refusal} (h : e.Legible) : message e = .ok e.message := by
  cases e with
  | illegalMove s t => simp only [message, text_ok h.1, text_ok h.2, ok_bind]; rfl
  | _ => rfl

theorem json_ok {n : Notice} (h : n.Legible) : json n = .ok n.toJson := by
  cases n with
  | validMoves id squares =>
      rw [json, mapM_ok fun s hs => text_ok (h s hs), ok_bind, List.map_map]
      rfl
  | pieceMoved id s t => simp only [json, text_ok h.1, text_ok h.2, ok_bind]; rfl
  | refused e => rw [json, message_ok h, ok_bind]; rfl
  | _ => rfl

end Checked

/-- Every square that is written out is on the board. -/
theorem Arbiter.legible_handle (a : Arbiter) (opened : Connections) (r : Request) :
    ∀ d ∈ (a.handle opened r).sent, d.notice.Legible := by
  rintro ⟨i, n⟩ hd
  have hsays : r.MaySay n := says_handle a opened r ⟨i, n⟩ hd
  cases hsays with
  | refused e he => exact he
  | validMoves id squares hs => exact hs
  | pieceMoved c id source target s t hr hs ht => exact ⟨hs, ht⟩
  | _ => trivial

/-! ### Runs -/

/-- What goes out when a request is met: an answer, and notices as JSON. -/
structure Outgoing where
  answer : Answer
  sent : List (ConnectionId × Json)

/-- What goes out after a request was handled. -/
def Handled.outgoing (x : Handled) : Outgoing :=
  ⟨x.answer, x.sent.map fun d => (d.recipient, d.notice.toJson)⟩

namespace ArrayArbiter

/-- An arbiter with nothing going on. -/
def new (store : Store) (budget : Duration) : ArrayArbiter := ⟨.empty, budget, 0, store, .empty⟩

/-- Handle a request as the occasion has it. -/
def meet (a : ArrayArbiter) (e : Occasion) : Checked (Outgoing × ArrayArbiter) := do
  let under : ArrayArbiter := { a with store := { a.store with outage := e.outage } }
  let x ← under.handle e.opened e.request
  let sent ← x.sent.mapM fun d => do
    let text ← Checked.json d.notice
    pure (d.recipient, text)
  pure (⟨x.answer, sent⟩, x.state)

/-- Meet occasions one after another. -/
def run (a : ArrayArbiter) : List Occasion → Checked (List Outgoing × ArrayArbiter)
  | [] => pure ([], a)
  | e :: es => do
    let (reply, a) ← a.meet e
    let (replies, a) ← a.run es
    pure (reply :: replies, a)

end ArrayArbiter

/-- Set up a table for a record and put questions to it. -/
def ArraySitting.session (serial : Nat) (id : MatchId) (r : MatchRecord) (budget : Duration)
    (store : Store) (asked : List (Outage × Sitting.Question)) :
    Checked (Except Refusal (List Sitting.Response × ArraySitting)) := do
  let table ← ArrayTable.setUp serial id r budget
  match table with
  | .error e => pure (.error e)
  | .ok t => do
    let said ← ArraySitting.run ⟨t, store⟩ asked
    pure (.ok said)

/-- Set up a table for a record and put questions to it. -/
def Sitting.session (serial : Nat) (id : MatchId) (r : MatchRecord) (budget : Duration)
    (store : Store) (asked : List (Outage × Sitting.Question)) :
    Except Refusal (List Sitting.Response × Sitting) :=
  (Table.setUp serial id r budget).map fun t => Sitting.run ⟨t, store⟩ asked

theorem Sitting.session_arrays {r : MatchRecord} {asked : List (Outage × Sitting.Question)}
    (hr : r.log.length + asked.length < 2 ^ 31) (serial : Nat) (id : MatchId) (budget : Duration)
    (store : Store) : ArraySitting.session serial id r budget store asked =
      .ok ((Sitting.session serial id r budget store asked).map fun x => (x.1, x.2.arrays)) := by
  have hr' : r.log.length < 2 ^ 31 := by omega
  rw [ArraySitting.session, Table.setUp_arrays hr', Checked.ok_bind, Sitting.session]
  cases ht : Table.setUp serial id r budget with
  | error e => rfl
  | ok t =>
      have hcounted : t.game.Counted r.log.length := by
        unfold Table.setUp at ht
        cases hg : Game.ofRecord r with
        | error e => rw [hg] at ht; cases ht
        | ok g =>
            rw [hg] at ht
            cases ht
            exact Game.counted_ofRecord hg
      have hrun := Sitting.run_arrays (d := ⟨t, store⟩) (l := asked) hcounted hr
      show ((Sitting.arrays ⟨t, store⟩).run asked >>= _) = _
      rw [hrun, Checked.ok_bind]
      rfl

namespace Arbiter

variable {a : Arbiter} {n : Nat}

theorem meet_arrays (h : a.Counted n) (hn : n + 1 < 2 ^ 31) (e : Occasion) :
    a.arrays.meet e = .ok ((a.meet e).outgoing, (a.meet e).state.arrays) := by
  have hunder : (a.under e.outage).Counted n := ⟨h.records, h.tables⟩
  have hsent : ((a.meet e).sent.mapM fun d => do
      let text ← Checked.json d.notice
      pure (d.recipient, text)) = .ok (a.meet e).outgoing.sent :=
    Checked.mapM_ok fun d hd => by
      rw [Checked.json_ok (legible_handle _ _ _ d hd), Checked.ok_bind, Checked.pure_eq_ok]
  unfold ArrayArbiter.meet
  show (ArrayArbiter.handle e.opened (a.under e.outage).arrays e.request >>= _) = _
  rw [handle_arrays hunder hn, Checked.ok_bind]
  show ((a.meet e).sent.mapM _ >>= _) = _
  rw [hsent, Checked.ok_bind]
  rfl

theorem run_arrays (hk : a.hall.Keyed) (h : a.Counted n) {es : List Occasion}
    (hn : n + es.length < 2 ^ 31) :
    a.arrays.run es = .ok ((a.trace es).map fun x => x.2.outgoing, (a.after es).arrays) := by
  induction es generalizing a n with
  | nil => rfl
  | cons e es ih =>
      rw [List.length_cons] at hn
      have hunder : (a.under e.outage).Counted n := ⟨h.records, h.tables⟩
      have hk' : (a.meet e).state.hall.Keyed :=
        keyed_handle (a := a.under e.outage) hk e.opened e.request
      have hnext : (a.meet e).state.Counted (n + 1) :=
        counted_handle (a := a.under e.outage) hk hunder e.opened e.request
      simp only [ArrayArbiter.run, meet_arrays h (show n + 1 < 2 ^ 31 by omega),
        ih hk' hnext (by omega), Checked.ok_bind, Checked.pure_eq_ok]
      rfl

/-- **No request and no record makes the rules fail.**  Take any records, whatever rows, columns,
squares, seats and status they have, with less than `2 ^ 30` entries each, and any less than
`2 ^ 30` requests, whatever squares they name.  Every index into the arrays of the board is then in
range, and no difference, distance, sum, count or text of a square runs out of its type: the run on
arrays gives the replies of the arbiter and ends with its state.  The same holds for a table that is
set up from any such record and asked directly, on the board or off. -/
theorem rules_never_fail (store : Store) (budget : Duration) (es : List Occasion)
    (serial : Nat) (id : MatchId) (r : MatchRecord) (asked : List (Outage × Sitting.Question))
    (hstore : ∀ m r, store.records.get? m = some r → r.log.length < 2 ^ 30)
    (hes : es.length < 2 ^ 30) (hr : r.log.length < 2 ^ 30) (hasked : asked.length < 2 ^ 30) :
    (ArrayArbiter.new store budget).run es =
        .ok (((new store budget).trace es).map fun x => x.2.outgoing,
          ((new store budget).after es).arrays) ∧
      ArraySitting.session serial id r budget store asked =
        .ok ((Sitting.session serial id r budget store asked).map fun x => (x.1, x.2.arrays)) := by
  have hcounted : (new store budget).Counted (2 ^ 30) :=
    ⟨fun m r hr => (hstore m r hr).le, fun m t ht => by cases ht⟩
  refine ⟨run_arrays (keyed_new store budget) hcounted (by omega), ?_⟩
  exact Sitting.session_arrays (by omega) serial id budget store

/-- A match in play beside a record that puts a king on row 255, with requests and questions that
name no squares of the board. -/
theorem rules_never_fail_on_stray_squares :
    let m : MatchId := ⟨⟨7⟩⟩
    let alice : Connection := ⟨⟨0⟩, ⟨⟨1⟩⟩⟩
    let bob : UserId := ⟨⟨2⟩⟩
    let seats : Seats := ⟨some alice.user, some bob⟩
    let stray : MatchRecord := ⟨seats, .black, [⟨.white, "e1", "i9"⟩],
      [⟨.white, .king, 255, 8⟩], .underway, none⟩
    let store := ((Store.new []).seed m (.fresh seats)).seed ⟨⟨8⟩⟩ stray
    let es : List Occasion := [⟨.move alice m "e2" "e4", .empty, .none⟩,
      ⟨.move alice m "e9" "", .empty, .none⟩, ⟨.showMoves alice ⟨⟨8⟩⟩ "a1", .empty, .none⟩]
    let asked : List (Outage × Sitting.Question) :=
      [(.none, .moves alice.user ⟨200, 255⟩), (.none, .move alice.user ⟨8, 128⟩ ⟨127, 0⟩)]
    (∃ replies a, (ArrayArbiter.new store ⟨1000⟩).run es = .ok (replies, a) ∧
        replies.map (·.answer) = [.done, .done, .done]) ∧
      ∃ said, ArraySitting.session 0 m (.fresh seats) ⟨1000⟩ store asked = .ok (.ok said) := by
  intro m alice bob seats stray store es asked
  have hstore : ∀ m r, store.records.get? m = some r → r.log.length < 2 ^ 30 := by
    intro m r hr
    rcases SortedMap.get?_insert_eq_some hr with ⟨-, rfl⟩ | ⟨-, hr⟩
    · show 1 < 2 ^ 30
      decide
    · rcases SortedMap.get?_insert_eq_some hr with ⟨-, rfl⟩ | ⟨-, hr⟩
      · exact Nat.two_pow_pos 30
      · cases hr
  obtain ⟨hrun, hsession⟩ := rules_never_fail store ⟨1000⟩ es 0 m (.fresh seats) asked hstore
    (show 3 < 2 ^ 30 by decide) (Nat.two_pow_pos 30) (show 2 < 2 ^ 30 by decide)
  refine ⟨⟨_, _, hrun, by decide +kernel⟩, ?_⟩
  rw [hsession, Sitting.session, Table.setUp, Game.ofRecord_fresh]
  exact ⟨_, rfl⟩

end Arbiter
end LiveChess
