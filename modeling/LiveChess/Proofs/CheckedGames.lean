import LiveChess.Proofs.Calls
import LiveChess.Proofs.CheckedRules

/-! # Matches on arrays

Setting up a match from its record, joining, asking for squares, moving and taking a picture, once
more for a match whose board is kept as arrays and whose every access, sum and piece of text may
fail.  A match is counted up to `n` (`Game.Counted`) if its log has at most `n` entries and no
square has been visited more than twice as often.  So is every match whose record has no more
entries, be its pieces and squares what they may (`Game.ofRecord_arrays`, `Game.counted_ofRecord`),
and a move counts up by one (`Game.Counted.move`).  With less than `2 ^ 31` entries nothing fails
and everything comes to what it comes to for the match itself; `Sitting.run_arrays` says so of any
questions put to a table, on the board or off. -/

namespace LiveChess

namespace Arrays

/-! ### Boards from records -/

/-- No pieces and no visits. -/
def empty : Arrays := ⟨.tabulate fun _ => none, .tabulate fun _ => 0⟩

/-- The starting position. -/
def start : Checked Arrays := (Board.army .white ++ Board.army .black).foldlM put empty

/-- The records of the pieces, row by row. -/
def toRecords (a : Arrays) : List PieceRecord := a.pieces.map Piece.toRecord

/-- Put recorded pieces on their squares. -/
def putRecords (a : Arrays) : List PieceRecord → Checked (Except RecordFault Arrays)
  | [] => pure (.ok a)
  | r :: rs =>
    match Square.ofRowCol? r.row r.col with
    | some s => do
      let a ← a.put ⟨r.kind, r.player, s⟩
      a.putRecords rs
    | none => pure (.error (.pieceOffBoard r.row r.col))

/-- Read the square that a log entry names. -/
def readSquare (text : String) : Checked (Except RecordFault Square) := do
  let square ← Checked.ofText? text
  match square with
  | some s => pure (.ok s)
  | none => pure (.error (.badSquare text))

/-- Going two files sideways from a side's unvisited king square. -/
def isLoggedCastling (a : Arrays) (c : Color) (s t : Square) : Checked Bool :=
  if s = c.kingHome ∧ t.row = s.row ∧ Board.TwoFiles s t then do
    let n ← a.moveCount s
    pure (decide (n = 0))
  else
    pure false

/-- Count the visits of a logged move. -/
def countMove (a : Arrays) (c : Color) (s t : Square) : Checked Arrays := do
  let castled ← a.isLoggedCastling c s t
  match if castled then RookLeg.ofKing? s.row t.col else none with
  | some leg => do
    let a ← a.bump leg.source
    let a ← a.bump leg.target
    let a ← a.bump s
    a.bump t
  | none => do
    let a ← a.bump s
    a.bump t

/-- Count the visits of a log. -/
def countRecords (a : Arrays) : List MoveRecord → Checked (Except RecordFault Arrays)
  | [] => pure (.ok a)
  | m :: ms => do
    let source ← readSquare m.source
    match source with
    | .error e => pure (.error e)
    | .ok s => do
      let target ← readSquare m.target
      match target with
      | .error e => pure (.error e)
      | .ok t => do
        let a ← a.countMove m.player s t
        a.countRecords ms

/-- The board of a list of pieces and a log. -/
def ofRecords (pieces : List PieceRecord) (log : List MoveRecord) :
    Checked (Except RecordFault Arrays) := do
  let placed ← empty.putRecords pieces
  match placed with
  | .error e => pure (.error e)
  | .ok a => a.countRecords log

end Arrays

namespace Board

variable {b : Board} {s t u : Square} {c : Color}

theorem arrays_empty : Board.empty.arrays = Arrays.empty := by
  have hsquares : Board.empty.squares = .tabulate fun _ => none :=
    Grid.tabulate_congr fun u _ => by rw [pieceAt, manAt_empty, Option.map_none]
  have hcounts : Board.empty.counts = .tabulate fun _ => 0 :=
    Grid.tabulate_congr fun u _ => by rw [visits_empty]; rfl
  rw [arrays, hsquares, hcounts, Arrays.empty]

theorem foldlM_put_arrays (b : Board) {ps : List Piece} (h : ∀ p ∈ ps, p.square.OnBoard) :
    ps.foldlM Arrays.put b.arrays = .ok (ps.foldl put b).arrays := by
  induction ps generalizing b with
  | nil => rfl
  | cons p ps ih =>
      rw [List.foldlM_cons, put_arrays b (h p List.mem_cons_self), Checked.ok_bind]
      exact ih _ fun q hq => h q (List.mem_cons_of_mem p hq)

theorem start_arrays : Arrays.start = .ok Board.start.arrays := by
  unfold Arrays.start
  rw [← arrays_empty, foldlM_put_arrays _ (by decide)]
  rfl

theorem putRecords_arrays (b : Board) (rs : List PieceRecord) :
    b.arrays.putRecords rs = .ok ((rs.foldlM putRecord b).map arrays) := by
  induction rs generalizing b with
  | nil => rfl
  | cons r rs ih =>
      rw [Arrays.putRecords, List.foldlM_cons, putRecord]
      cases hs : Square.ofRowCol? r.row r.col with
      | none => rfl
      | some s =>
          have hon : s.OnBoard := by
            unfold Square.ofRowCol? at hs
            split_ifs at hs with h
            exact Option.some.inj hs ▸ h
          simp only [put_arrays (p := ⟨r.kind, r.player, s⟩) b hon, Checked.ok_bind]
          exact ih _

theorem readSquare_ok (text : String) : Arrays.readSquare text = .ok (readSquare text) := by
  unfold Arrays.readSquare readSquare
  rw [Checked.ofText?_ok, Checked.ok_bind]
  cases Square.ofText? text <;> rfl

/-- A square that was read is the one that the text names. -/
theorem text_of_readSquare {text : String} (h : readSquare text = .ok s) :
    s.OnBoard ∧ text = s.text := by
  unfold readSquare at h
  cases hs : Square.ofText? text with
  | none => rw [hs] at h; cases h
  | some s' =>
      rw [hs] at h
      cases h
      exact Square.ofText?_eq_some_iff.mp hs

/-- An entry that was counted names two squares, and its move was counted. -/
theorem exists_of_countRecord {b' : Board} {m : MoveRecord} (h : b.countRecord m = .ok b') :
    ∃ s t, readSquare m.source = .ok s ∧ readSquare m.target = .ok t ∧
      b' = b.countMove m.player s t := by
  unfold countRecord at h
  cases hs : readSquare m.source with
  | error e => rw [hs] at h; cases h
  | ok s =>
      cases ht : readSquare m.target with
      | error e => rw [hs, ht] at h; cases h
      | ok t =>
          rw [hs, ht] at h
          cases h
          exact ⟨s, t, rfl, rfl, rfl⟩

theorem isLoggedCastling_arrays (h : b.Fits) (c : Color) (s t : Square) :
    b.arrays.isLoggedCastling c s t = .ok (b.isLoggedCastling c s t) := by
  have hzero : UInt32.ofNat (b.visits s) = 0 ↔ b.visits s = 0 := by
    rw [← not_iff_not, ← ne_eq (b.visits s), ← count_pos_iff h s, gt_iff_lt,
      UInt32.pos_iff_ne_zero]
  unfold Arrays.isLoggedCastling isLoggedCastling
  split_ifs with hway
  · obtain ⟨hs, hrow, htwo⟩ := hway
    rw [moveCount_arrays, Checked.ok_bind, decide_eq_true hs, decide_eq_true hrow,
      decide_eq_true htwo]
    simp [hzero]
  · rw [eq_comm, Checked.pure_eq_ok]
    congr 1
    simp only [Bool.and_eq_false_iff, decide_eq_false_iff_not]
    tauto

theorem visits_countMove_le (b : Board) (c : Color) (s t u : Square) :
    (b.countMove c s t).visits u ≤ b.visits u + 2 := by
  rw [visits_countMove]
  cases hc : b.loggedRook c s t with
  | none =>
      have h1 := hits_le_file s u
      have h2 := hits_le_file t u
      simp only [rookHits]
      split_ifs at h1 h2 <;> omega
  | some leg =>
      unfold loggedRook at hc
      split_ifs at hc with hcastling
      simp only [isLoggedCastling, Bool.and_eq_true, decide_eq_true_eq] at hcastling
      have hking : s.col = 4 := by rw [hcastling.1.1.1]; rfl
      have := hits_castling_le hking hc u
      omega

theorem countMove_arrays (b : Board) (c : Color) (hs : s.OnBoard) (ht : t.OnBoard)
    (h : (b.countMove c s t).Fits) :
    b.arrays.countMove c s t = .ok (b.countMove c s t).arrays := by
  have hb : b.Fits := h.mono fun u => by rw [visits_countMove]; omega
  rw [Arrays.countMove, isLoggedCastling_arrays hb, Checked.ok_bind]
  show (match b.loggedRook c s t with
    | some leg => _
    | none => _) = _
  unfold countMove at h ⊢
  cases hc : b.loggedRook c s t with
  | none =>
      simp only [hc] at h ⊢
      have h1 : (b.visit s).Fits := h.mono (visits_le_visit _ t)
      rw [bump_arrays b hs h1, Checked.ok_bind, bump_arrays _ ht h]
  | some leg =>
      have hleg : RookLeg.ofKing? s.row t.col = some leg := by
        unfold loggedRook at hc
        split_ifs at hc
        exact hc
      have hsource := RookLeg.onBoard_of_ofKing? hs.1 hleg
      simp only [hc] at h ⊢
      have h3 := h.mono (visits_le_visit _ t)
      have h2 := h3.mono (visits_le_visit _ s)
      have h1 := h2.mono (visits_le_visit _ leg.target)
      rw [bump_arrays b hsource.1 h1, Checked.ok_bind, bump_arrays _ hsource.2 h2,
        Checked.ok_bind, bump_arrays _ hs h3, Checked.ok_bind, bump_arrays _ ht h]

theorem countRecords_arrays {b : Board} {log : List MoveRecord}
    (h : ∀ u, b.visits u + 2 * log.length < 2 ^ 32) :
    b.arrays.countRecords log = .ok ((log.foldlM countRecord b).map arrays) := by
  induction log generalizing b with
  | nil => rfl
  | cons m ms ih =>
      rw [Arrays.countRecords, List.foldlM_cons, countRecord, readSquare_ok, Checked.ok_bind]
      cases hs : readSquare m.source with
      | error e => rfl
      | ok s =>
          simp only [readSquare_ok, Checked.ok_bind]
          cases ht : readSquare m.target with
          | error e => rfl
          | ok t =>
              have hnext : ∀ u, (b.countMove m.player s t).visits u + 2 * ms.length < 2 ^ 32 := by
                intro u
                have h1 := visits_countMove_le b m.player s t u
                have h2 := h u
                rw [List.length_cons] at h2
                omega
              have hfits : (b.countMove m.player s t).Fits := fun u =>
                Nat.lt_of_le_of_lt (Nat.le_add_right _ _) (hnext u)
              simp only [countMove_arrays b m.player (text_of_readSquare hs).1
                (text_of_readSquare ht).1 hfits]
              exact ih hnext

/-- Putting pieces visits nothing. -/
theorem visits_foldlM_putRecord {b b' : Board} {rs : List PieceRecord}
    (h : rs.foldlM putRecord b = .ok b') (u : Square) : b'.visits u = b.visits u := by
  induction rs generalizing b with
  | nil => cases h; rfl
  | cons r rs ih =>
      rw [List.foldlM_cons, putRecord] at h
      cases hs : Square.ofRowCol? r.row r.col with
      | none => rw [hs] at h; cases h
      | some s =>
          rw [hs] at h
          exact (ih h).trans (visits_setMan b s u _)

/-- Counting a log visits no square more than twice for an entry. -/
theorem visits_foldlM_countRecord_le {b b' : Board} {log : List MoveRecord}
    (h : log.foldlM countRecord b = .ok b') (u : Square) :
    b'.visits u ≤ b.visits u + 2 * log.length := by
  induction log generalizing b with
  | nil => cases h; exact Nat.le_refl _
  | cons m ms ih =>
      rw [List.foldlM_cons] at h
      cases hm : b.countRecord m with
      | error e => rw [hm] at h; cases h
      | ok b₁ =>
          rw [hm] at h
          obtain ⟨s, t, -, -, rfl⟩ := exists_of_countRecord hm
          have h1 := ih h
          have h2 := visits_countMove_le b m.player s t u
          rw [List.length_cons]
          omega

theorem ofRecords_arrays (pieces : List PieceRecord) {log : List MoveRecord}
    (h : 2 * log.length < 2 ^ 32) :
    Arrays.ofRecords pieces log = .ok ((ofRecords pieces log).map arrays) := by
  rw [Arrays.ofRecords, ← arrays_empty, putRecords_arrays, Checked.ok_bind, ofRecords]
  cases hb : pieces.foldlM putRecord Board.empty with
  | error e => rfl
  | ok b =>
      exact countRecords_arrays fun u => by
        rw [visits_foldlM_putRecord hb, visits_empty]
        omega

/-- A board from records has at most two visits of a square for an entry of the log. -/
theorem visits_ofRecords_le {pieces : List PieceRecord} {log : List MoveRecord}
    (h : ofRecords pieces log = .ok b) (u : Square) : b.visits u ≤ 2 * log.length := by
  unfold ofRecords at h
  cases hb : pieces.foldlM putRecord Board.empty with
  | error e => rw [hb] at h; cases h
  | ok b₀ =>
      rw [hb] at h
      have := visits_foldlM_countRecord_le h u
      rwa [visits_foldlM_putRecord hb, visits_empty, Nat.zero_add] at this

end Board
/-! ### Games -/

/-- A match in memory whose board is kept as arrays. -/
structure ArrayGame where
  seats : Seats
  turn : Color
  status : Status
  winner : Option UserId
  log : List MoveRecord
  board : Arrays

namespace ArrayGame

/-- The match with an empty board, for what does not depend on the board. -/
def face (g : ArrayGame) : Game := ⟨g.seats, g.turn, g.status, g.winner, g.log, .empty⟩

/-- The match of a record; one with neither pieces nor moves is at the starting position. -/
def ofRecord (r : MatchRecord) : Checked (Except Refusal ArrayGame) := do
  let board ←
    if r.pieces.isEmpty && r.log.isEmpty then do
      let a ← Arrays.start
      pure (.ok a)
    else
      Arrays.ofRecords r.pieces r.log
  match board with
  | .ok a => pure (.ok ⟨r.seats, r.turn, r.status, r.winner, r.log, a⟩)
  | .error e => pure (.error (.ofRecordFault e))

/-- The record of a match. -/
def toRecord (g : ArrayGame) : MatchRecord :=
  ⟨g.seats, g.turn, g.log, g.board.toRecords, g.status, g.winner⟩

/-- Take the first free seat. -/
def join (g : ArrayGame) (u : UserId) : Except Refusal (Color × ArrayGame) :=
  match g.face.join u with
  | .error e => .error e
  | .ok (c, next) => .ok (c, { g with seats := next.seats, status := next.status })

/-- The squares to which whatever stands on a square may be moved. -/
def movesFrom (g : ArrayGame) (u : UserId) (s : Square) : Checked (Except Refusal (List Square)) :=
  match g.face.checkPlayer u with
  | .error e => pure (.error e)
  | .ok _ => do
    let squares ← g.board.validMovesFrom s
    pure (.ok squares)

/-- The match after a move of the side on turn. -/
def afterMove (g : ArrayGame) (u : UserId) (mover : Color) (s t : Square) (board : Arrays) :
    Checked (MoveOutcome × ArrayGame) := do
  let source ← Checked.text s
  let target ← Checked.text t
  let inCheck ← board.inCheck mover.opponent
  let checkmate ← if inCheck then board.isCheckmate mover.opponent else pure false
  pure (⟨mover, s, t, inCheck, checkmate⟩,
    { g with
      board := board
      log := g.log ++ [⟨mover, source, target⟩]
      turn := mover.opponent
      status := if checkmate then g.status.advance .closed else g.status
      winner := if checkmate then some u else g.winner })

/-- Move the user's man on `s` to `t`. -/
def move (g : ArrayGame) (u : UserId) (s t : Square) :
    Checked (Except Refusal (MoveOutcome × ArrayGame)) :=
  match g.face.checkMover u with
  | .error e => pure (.error e)
  | .ok mover => do
    let standing ← g.board.pieceAt s
    match standing with
    | none => pure (.error (.illegalMove s t))
    | some p =>
      if p.color ≠ mover then pure (.error (.illegalMove s t))
      else do
        let placed ← g.board.placePiece p t
        match placed with
        | none => pure (.error (.illegalMove s t))
        | some (_, board) => do
          let next ← g.afterMove u mover s t board
          pure (.ok next)

/-- The picture of a match with the given onlookers. -/
def snapshot (g : ArrayGame) (id : MatchId) (viewers : List UserId) : Checked Snapshot := do
  let inCheck ← g.board.inCheck g.turn
  let checkmate ← g.board.isCheckmate g.turn
  pure
    { id := id
      seats := g.seats
      turn := g.turn
      status := g.status
      winner := g.winner
      grid := g.board.grid
      log := g.log
      pieces := g.board.toRecords
      inCheck := inCheck
      checkmate := checkmate
      viewers := viewers }

end ArrayGame

namespace Game

variable {g g' : Game} {u : UserId} {c : Color} {s t : Square} {o : MoveOutcome} {n k : Nat}

/-- The match with its board as arrays. -/
def arrays (g : Game) : ArrayGame :=
  ⟨g.seats, g.turn, g.status, g.winner, g.log, g.board.arrays⟩

/-- At most `n` moves were logged, and no square has been visited more than twice for each. -/
structure Counted (n : Nat) (g : Game) : Prop where
  log : g.log.length ≤ n
  visits : ∀ u, g.board.visits u ≤ 2 * g.log.length

theorem Counted.mono (h : g.Counted n) (hnk : n ≤ k) : g.Counted k := ⟨h.log.trans hnk, h.visits⟩

theorem counted_ofRecord {r : MatchRecord} (h : ofRecord r = .ok g) : g.Counted r.log.length := by
  unfold ofRecord at h
  split_ifs at h with hempty
  · cases h
    exact ⟨Nat.le_refl _, fun u => by rw [Board.visits_start]; exact Nat.zero_le _⟩
  · cases hb : Board.ofRecords r.pieces r.log with
    | error e => rw [hb] at h; cases h
    | ok b =>
        rw [hb] at h
        cases h
        exact ⟨Nat.le_refl _, Board.visits_ofRecords_le hb⟩

theorem Counted.join (h : g.Counted n) (hj : g.join u = .ok (c, g')) : g'.Counted n := by
  obtain ⟨-, -, -, rfl⟩ := join_eq_ok_iff.mp hj
  exact ⟨h.log, h.visits⟩

/-- A move logs one entry and visits no square twice. -/
theorem Counted.move (h : g.Counted n) (hm : g.move u s t = .ok (o, g')) : g'.Counted (n + 1) := by
  obtain ⟨p, -, -, -, -, -, ht, e⟩ := move_eq_ok_iff.mp hm
  cases e
  have hlog : (g.log ++ [(⟨p.color, s.text, t.text⟩ : MoveRecord)]).length = g.log.length + 1 :=
    List.length_append
  refine ⟨?_, fun v => ?_⟩
  · rw [hlog]
    exact Nat.add_le_add_right h.log 1
  · have h1 := Board.visits_apply_le (Board.admits_of_mem_moves ht) v
    have h2 := h.visits v
    simp only [hlog]
    omega

theorem Counted.roomy (h : g.Counted n) (hn : n < 2 ^ 31) : g.board.Roomy := fun v => by
  have h1 := h.visits v
  have h2 := h.log
  omega

/-! ### Games on arrays -/

theorem ofRecord_arrays {r : MatchRecord} (h : r.log.length < 2 ^ 31) :
    ArrayGame.ofRecord r = .ok ((ofRecord r).map arrays) := by
  unfold ArrayGame.ofRecord ofRecord
  split_ifs with hempty
  · rw [Board.start_arrays]
    rfl
  · rw [Board.ofRecords_arrays r.pieces (by omega), Checked.ok_bind]
    cases Board.ofRecords r.pieces r.log <;> rfl

theorem toRecord_arrays (g : Game) : g.arrays.toRecord = g.toRecord := by
  have hpieces : g.board.arrays.toRecords = g.board.toRecords := by
    rw [Arrays.toRecords, Board.pieces_arrays, Board.toRecords]
  simp only [ArrayGame.toRecord, arrays, hpieces, toRecord]

theorem join_arrays (g : Game) (u : UserId) :
    g.arrays.join u = (g.join u).map fun r => (r.1, r.2.arrays) := by
  have hstatus : g.arrays.face.status = g.status := rfl
  have hseats : g.arrays.face.seats = g.seats := rfl
  simp only [ArrayGame.join, join, hstatus, hseats]
  by_cases hw : g.status = .waiting
  · simp only [hw]
    by_cases hs : (g.seats.seatOf u).isSome = true
    · simp [hs, Except.map]
    · simp only [hs]
      cases g.seats.firstFree <;> rfl
  · simp [hw, Except.map]

theorem movesFrom_arrays (h : g.board.Roomy) (u : UserId) (s : Square) :
    g.arrays.movesFrom u s = .ok (g.movesFrom u s) := by
  unfold ArrayGame.movesFrom movesFrom
  show (match g.checkPlayer u with
    | .error e => _
    | .ok _ => _) = _
  cases g.checkPlayer u with
  | error e => rfl
  | ok c =>
      simp only [arrays, Board.validMovesFrom_arrays h, Checked.ok_bind, Checked.pure_eq_ok]

theorem afterMove_arrays (g : Game) (u : UserId) (mover : Color) (hs : s.OnBoard) (ht : t.OnBoard)
    {b : Board} (h : b.Roomy) :
    g.arrays.afterMove u mover s t b.arrays =
      .ok ((g.afterMove u mover s t b).1, (g.afterMove u mover s t b).2.arrays) := by
  simp only [ArrayGame.afterMove, afterMove, Checked.text_ok hs, Checked.text_ok ht,
    Board.inCheck_arrays, Board.isCheckmate_arrays h, Checked.ok_bind, Checked.pure_eq_ok]
  cases b.inCheck mover.opponent <;> rfl

theorem move_arrays (h : g.Counted n) (hn : n + 1 < 2 ^ 31) (u : UserId) (s t : Square) :
    g.arrays.move u s t = .ok ((g.move u s t).map fun r => (r.1, r.2.arrays)) := by
  have hroomy : g.board.Roomy := h.roomy (by omega)
  unfold ArrayGame.move move
  show (match g.checkMover u with
    | .error e => _
    | .ok mover => _) = _
  cases g.checkMover u with
  | error e => rfl
  | ok mover =>
      have hread : g.arrays.board.pieceAt s = .ok (g.board.pieceAt s) := Board.pieceAt_arrays _ _
      simp only [hread, Checked.ok_bind]
      cases hp : g.board.pieceAt s with
      | none => rfl
      | some p =>
          simp only
          split_ifs with hc
          · rfl
          · have hplace := Board.placePiece_arrays hroomy p t
            rw [show g.arrays.board = g.board.arrays from rfl, hplace, Checked.ok_bind]
            cases hplay : g.board.play? p t with
            | none => rfl
            | some r =>
                obtain ⟨r, b⟩ := r
                obtain ⟨ht, -, rfl⟩ := Board.play?_eq_some_iff.mp hplay
                have ha := Board.admits_of_mem_moves ht
                have hs : s.OnBoard := Board.onBoard_of_manAt (Board.pieceAt_eq_some_iff.mp hp).2
                have hnext : (g.board.apply p t).Roomy := fun v => by
                  have h1 := Board.visits_apply_le ha v
                  have h2 := h.visits v
                  have h3 := h.log
                  omega
                simp only [Option.map_some,
                  afterMove_arrays g u mover hs (Board.admits_spec ha).1 hnext, Checked.ok_bind]
                rfl

theorem snapshot_arrays (h : g.board.Roomy) (id : MatchId) (viewers : List UserId) :
    g.arrays.snapshot id viewers = .ok (g.snapshot id viewers) := by
  have hpieces : g.board.arrays.toRecords = g.board.toRecords :=
    congrArg MatchRecord.pieces g.toRecord_arrays
  simp only [ArrayGame.snapshot, arrays, Board.inCheck_arrays, Board.isCheckmate_arrays h,
    Board.grid_arrays, hpieces, Checked.ok_bind, Checked.pure_eq_ok, snapshot]

end Game

/-! ### Tables -/

/-- A live match whose board is kept as arrays. -/
structure ArrayTable where
  id : MatchId
  serial : Nat
  budget : Duration
  game : ArrayGame
  followers : Connections

namespace ArrayTable

variable {α : Type}

/-- Set up the table of a record, with nobody following. -/
def setUp (serial : Nat) (id : MatchId) (r : MatchRecord) (budget : Duration) :
    Checked (Except Refusal ArrayTable) := do
  let game ← ArrayGame.ofRecord r
  match game with
  | .ok g => pure (.ok ⟨id, serial, budget, g, .empty⟩)
  | .error e => pure (.error e)

/-- Try a step of the game, save where it leads and, if that works, make it the present state. -/
def attempt (t : ArrayTable) (s : Store) (step : Except Refusal (α × ArrayGame)) :
    Except Refusal α × ArrayTable × Store :=
  match step with
  | .error e => (.error e, t, s)
  | .ok (x, next) =>
    match s.save t.id next.toRecord t.budget with
    | (.ok (), s) => (.ok x, { t with game := next }, s)
    | (.error e, s) => (.error (.store e), t, s)

/-- Take the first free seat. -/
def join (t : ArrayTable) (u : UserId) (s : Store) : Except Refusal Color × ArrayTable × Store :=
  t.attempt s (t.game.join u)

/-- Move a man. -/
def move (t : ArrayTable) (u : UserId) (source target : Square) (s : Store) :
    Checked (Except Refusal MoveOutcome × ArrayTable × Store) := do
  let step ← t.game.move u source target
  pure (t.attempt s step)

/-- Let a connection follow the match. -/
def connect (t : ArrayTable) (c : Connection) : ArrayTable :=
  { t with followers := t.followers.insert c }

/-- Let connections follow the match. -/
def connectAll (t : ArrayTable) (cs : List Connection) : ArrayTable := cs.foldl connect t

/-- Let a connection no longer follow the match. -/
def disconnect (t : ArrayTable) (c : Connection) : ArrayTable :=
  { t with followers := t.followers.erase c }

/-- The picture of the match. -/
def snapshot (t : ArrayTable) : Checked Snapshot := t.game.snapshot t.id t.followers.users

end ArrayTable

namespace Table

variable {α : Type} {t : Table} {n : Nat}

/-- The table with its board as arrays. -/
def arrays (t : Table) : ArrayTable := ⟨t.id, t.serial, t.budget, t.game.arrays, t.followers⟩

/-- What a step of a table comes to, its board as arrays. -/
def onArrays (x : α × Table × Store) : α × ArrayTable × Store := (x.1, x.2.1.arrays, x.2.2)

theorem setUp_arrays {r : MatchRecord} (h : r.log.length < 2 ^ 31) (serial : Nat) (id : MatchId)
    (budget : Duration) :
    ArrayTable.setUp serial id r budget = .ok ((setUp serial id r budget).map arrays) := by
  rw [ArrayTable.setUp, Game.ofRecord_arrays h, Checked.ok_bind, setUp]
  cases Game.ofRecord r <;> rfl

theorem attempt_arrays (t : Table) (s : Store) (step : Except Refusal (α × Game)) :
    t.arrays.attempt s (step.map fun r => (r.1, r.2.arrays)) = onArrays (t.attempt s step) := by
  cases step with
  | error e => rfl
  | ok r =>
      obtain ⟨x, next⟩ := r
      simp only [Except.map, ArrayTable.attempt, attempt, commit, Game.toRecord_arrays]
      show (match s.save t.id next.toRecord t.budget with
        | (.ok (), s) => _
        | (.error e, s) => _) = _
      generalize s.save t.id next.toRecord t.budget = y
      obtain ⟨e | v, s⟩ := y <;> rfl

theorem join_arrays (t : Table) (u : UserId) (s : Store) :
    t.arrays.join u s = onArrays (t.join u s) := by
  rw [ArrayTable.join, join_eq_attempt, ← attempt_arrays, ← Game.join_arrays]
  rfl

theorem move_arrays (h : t.game.Counted n) (hn : n + 1 < 2 ^ 31) (u : UserId)
    (source target : Square) (s : Store) :
    t.arrays.move u source target s = .ok (onArrays (t.move u source target s)) := by
  rw [ArrayTable.move, show t.arrays.game = t.game.arrays from rfl, Game.move_arrays h hn,
    Checked.ok_bind, attempt_arrays, move_eq_attempt]
  rfl

theorem connectAll_arrays (t : Table) (cs : List Connection) :
    t.arrays.connectAll cs = (t.connectAll cs).arrays := by
  induction cs generalizing t with
  | nil => rfl
  | cons c cs ih => exact ih (t.connect c)

theorem snapshot_arrays (h : t.game.board.Roomy) : t.arrays.snapshot = .ok t.snapshot :=
  Game.snapshot_arrays h t.id t.viewers

end Table

/-! ### Questions at a table -/

/-- A table and the store behind it, the board kept as arrays. -/
structure ArraySitting where
  table : ArrayTable
  store : Store

namespace ArraySitting

/-- Put a question while the store has a given outage. -/
def ask (d : ArraySitting) (o : Outage) :
    Sitting.Question → Checked (Sitting.Response × ArraySitting)
  | .join u =>
    match d.table.join u { d.store with outage := o } with
    | (r, t, s) => pure (.seat r, ⟨t, s⟩)
  | .move u source target => do
    let (r, t, s) ← d.table.move u source target { d.store with outage := o }
    pure (.outcome r, ⟨t, s⟩)
  | .moves u source => do
    let r ← d.table.game.movesFrom u source
    pure (.squares r, ⟨d.table, { d.store with outage := o }⟩)

/-- Put questions one after another. -/
def run (d : ArraySitting) :
    List (Outage × Sitting.Question) → Checked (List Sitting.Response × ArraySitting)
  | [] => pure ([], d)
  | (o, q) :: rest => do
    let (r, d) ← d.ask o q
    let (rs, d) ← d.run rest
    pure (r :: rs, d)

end ArraySitting

namespace Sitting

variable {d : Sitting} {n : Nat}

/-- The sitting with its board as arrays. -/
def arrays (d : Sitting) : ArraySitting := ⟨d.table.arrays, d.store⟩

theorem ask_arrays (h : d.table.game.Counted n) (hn : n + 1 < 2 ^ 31) (o : Outage) (q : Question) :
    d.arrays.ask o q = .ok ((d.ask o q).1, (d.ask o q).2.arrays) := by
  cases q with
  | join u =>
      simp only [ArraySitting.ask, arrays, Table.join_arrays]
      rfl
  | move u source target =>
      simp only [ArraySitting.ask, arrays, Table.move_arrays h hn, Checked.ok_bind]
      rfl
  | moves u source =>
      have hroomy : d.table.game.board.Roomy := h.roomy (by omega)
      simp only [ArraySitting.ask]
      rw [show d.arrays.table.game = d.table.game.arrays from rfl, Game.movesFrom_arrays hroomy]
      rfl

theorem counted_ask (h : d.table.game.Counted n) (o : Outage) (q : Question) :
    (d.ask o q).2.table.game.Counted (n + 1) := by
  rcases d.game_call (.ask o q) with hg | ⟨-, u, seat, -, hg⟩ | ⟨-, u, s, t, outcome, -, hg⟩
  · exact hg ▸ h.mono (Nat.le_succ n)
  · exact (h.join hg).mono (Nat.le_succ n)
  · exact h.move hg

/-- Whatever is asked at a table, nothing fails before `2 ^ 31` entries. -/
theorem run_arrays {l : List (Outage × Question)} (h : d.table.game.Counted n)
    (hn : n + l.length < 2 ^ 31) : d.arrays.run l = .ok ((d.run l).1, (d.run l).2.arrays) := by
  induction l generalizing d n with
  | nil => rfl
  | cons x l ih =>
      obtain ⟨o, q⟩ := x
      rw [List.length_cons] at hn
      have hrest := ih (counted_ask h o q) (by omega)
      simp only [ArraySitting.run, ask_arrays h (by omega), Checked.ok_bind, hrest]
      rfl

end Sitting
end LiveChess
