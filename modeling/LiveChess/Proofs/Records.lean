import LiveChess.Proofs.CheckedGames
import LiveChess.Proofs.Placements

/-! # Boards from any records

Nothing is known of stored records: pieces may lie off the board or on one square, and the log may
be no game at all.  `recordFaults` lists what is wrong with them, in the order in which they are
read; records without faults make a board, and this board reflects them (`Board.Reflects`): each
square holds the piece last recorded there and has been visited as often as the log says
(`logVisits`).  That an entry of the log castles is read off visits that are still being counted.
But no rook leg touches a king's home square, so this square is unvisited exactly if no earlier
entry names it. -/

namespace LiveChess

/-! ### What records say -/

/-- A letter `a` to `h` and a digit `1` to `8`, and nothing else. -/
def Square.IsText (text : String) : Prop :=
  ∃ file rank, text = String.ofList [file, rank] ∧
    'a' ≤ file ∧ file ≤ 'h' ∧ '1' ≤ rank ∧ rank ≤ '8'

/-- The square that a piece is recorded on, on the board or off. -/
def PieceRecord.square (r : PieceRecord) : Square := ⟨r.row, r.col⟩

/-- The recorded piece. -/
def PieceRecord.piece (r : PieceRecord) : Piece := ⟨r.kind, r.player, r.square⟩

/-- The last of the pieces recorded on a square. -/
def lastOn (pieces : List PieceRecord) (u : Square) : Option PieceRecord :=
  (pieces.filter fun r => decide (r.square = u)).getLast?

namespace MoveRecord

/-- The entry goes from the square or to it. -/
def Names (m : MoveRecord) (u : Square) : Prop := m.source = u.text ∨ m.target = u.text

instance (m : MoveRecord) (u : Square) : Decidable (m.Names u) :=
  inferInstanceAs (Decidable (_ ∨ _))

/-- After the entries before it, the entry castles to a wing: it goes from its player's king square
two files sideways, and none of those before it names this square. -/
def Castles (m : MoveRecord) (before : List MoveRecord) (w : Wing) : Prop :=
  m.source = m.player.kingHome.text ∧ m.target = (m.player.castlesTo w).text ∧
    ∀ e ∈ before, ¬ e.Names m.player.kingHome

instance (m : MoveRecord) (before : List MoveRecord) (w : Wing) : Decidable (m.Castles before w) :=
  inferInstanceAs (Decidable (_ ∧ _ ∧ _))

/-- After the entries before it, the entry castles, and the rook starts or ends on the square. -/
def CarriesRook (m : MoveRecord) (before : List MoveRecord) (u : Square) : Prop :=
  ∃ w ∈ [Wing.king, Wing.queen],
    m.Castles before w ∧ (u = m.player.rookHome w ∨ u = m.player.crosses w)

instance (m : MoveRecord) (before : List MoveRecord) (u : Square) :
    Decidable (m.CarriesRook before u) :=
  inferInstanceAs (Decidable (∃ w ∈ _, _))

end MoveRecord

/-- How often a log visits a square: once for each entry that goes from there, once for each that
goes there, and once for each castling whose rook starts or ends there. -/
def logVisits (log : List MoveRecord) (u : Square) : Nat :=
  log.countP (fun m => decide (m.source = u.text)) +
    log.countP (fun m => decide (m.target = u.text)) +
    (List.range log.length).countP fun i =>
      decide (∃ m ∈ log[i]?, m.CarriesRook (log.take i) u)

/-- What is wrong with the record of a piece. -/
def PieceRecord.faults (r : PieceRecord) : List RecordFault :=
  if r.square.OnBoard then [] else [.pieceOffBoard r.row r.col]

/-- What is wrong with an entry of a log, its source before its target. -/
def MoveRecord.faults (m : MoveRecord) : List RecordFault :=
  ([m.source, m.target].filter fun text => (Square.ofText? text).isNone).map .badSquare

/-- What is wrong with records, in the order in which they are read. -/
def recordFaults (pieces : List PieceRecord) (log : List MoveRecord) : List RecordFault :=
  pieces.flatMap PieceRecord.faults ++ log.flatMap MoveRecord.faults

namespace Square

variable {text : String} {s u : Square}

theorem isSome_ofText?_iff : (ofText? text).isSome = true ↔ IsText text := by
  unfold ofText? IsText
  constructor
  · intro h
    split at h
    · rename_i file rank hlist
      split at h
      · rename_i hl
        exact ⟨file, rank, by rw [← hlist, String.ofList_toList], hl⟩
      · cases h
    · cases h
  · rintro ⟨file, rank, rfl, hl⟩
    rw [String.toList_ofList]
    simp only
    rw [if_pos hl]
    rfl

theorem text_inj (hs : s.OnBoard) (hu : u.OnBoard) : s.text = u.text ↔ s = u := by
  constructor
  · intro h
    have := ofText?_text hs
    rw [h, ofText?_text hu] at this
    exact (Option.some.inj this).symm
  · rintro rfl
    rfl

end Square

/-! ### Faults -/

/-- Why no board was made, if none was. -/
def RecordFault.of? : Except RecordFault Board → Option RecordFault
  | .ok _ => none
  | .error e => some e

namespace Board

variable {b b' : Board} {s t u : Square} {pieces : List PieceRecord} {log : List MoveRecord}

/-- A loop that stops at the first fault of an item stops at the first fault of all. -/
theorem of?_foldlM {α : Type} {f : Board → α → Except RecordFault Board}
    {faults : α → List RecordFault} (hf : ∀ b x, RecordFault.of? (f b x) = (faults x).head?)
    (l : List α) (b : Board) :
    RecordFault.of? (l.foldlM f b) = (l.flatMap faults).head? := by
  induction l generalizing b with
  | nil => rfl
  | cons x l ih =>
      have hx := hf b x
      rw [List.foldlM_cons, List.flatMap_cons, List.head?_append, ← hx]
      cases f b x with
      | error e => rfl
      | ok b' => exact ih b'

theorem of?_putRecord (b : Board) (r : PieceRecord) :
    RecordFault.of? (b.putRecord r) = r.faults.head? := by
  unfold putRecord Square.ofRowCol? PieceRecord.faults PieceRecord.square
  split_ifs <;> rfl

theorem of?_countRecord (b : Board) (m : MoveRecord) :
    RecordFault.of? (b.countRecord m) = m.faults.head? := by
  unfold countRecord readSquare MoveRecord.faults
  cases hs : Square.ofText? m.source with
  | none => simp [hs, RecordFault.of?]
  | some s =>
      cases ht : Square.ofText? m.target with
      | none => simp [hs, ht, RecordFault.of?]
      | some t => simp [hs, ht, RecordFault.of?]

/-- Records fail with the first of their faults. -/
theorem of?_ofRecords (pieces : List PieceRecord) (log : List MoveRecord) :
    RecordFault.of? (ofRecords pieces log) = (recordFaults pieces log).head? := by
  rw [recordFaults, List.head?_append, ← of?_foldlM of?_putRecord pieces empty, ofRecords]
  cases pieces.foldlM putRecord empty with
  | error e => rfl
  | ok b => exact of?_foldlM of?_countRecord log b

theorem ofRecords_eq_error_iff {e : RecordFault} :
    ofRecords pieces log = .error e ↔ (recordFaults pieces log).head? = some e := by
  rw [← of?_ofRecords]
  cases ofRecords pieces log <;> simp [RecordFault.of?]

theorem recordFaults_eq_nil_iff : recordFaults pieces log = [] ↔
    (∀ r ∈ pieces, r.square.OnBoard) ∧
      ∀ m ∈ log, Square.IsText m.source ∧ Square.IsText m.target := by
  have hpiece : ∀ r : PieceRecord, r.faults = [] ↔ r.square.OnBoard := by
    intro r
    unfold PieceRecord.faults
    split_ifs with h <;> simp [h]
  have hentry : ∀ m : MoveRecord,
      m.faults = [] ↔ Square.IsText m.source ∧ Square.IsText m.target := by
    intro m
    unfold MoveRecord.faults
    simp [← Square.isSome_ofText?_iff, Option.isSome_iff_ne_none]
  simp only [recordFaults, List.append_eq_nil_iff, List.flatMap_eq_nil_iff, hpiece, hentry]

theorem exists_ofRecords_iff : (∃ b, ofRecords pieces log = .ok b) ↔
    (∀ r ∈ pieces, r.square.OnBoard) ∧
      ∀ m ∈ log, Square.IsText m.source ∧ Square.IsText m.target := by
  rw [← recordFaults_eq_nil_iff, ← List.head?_eq_none_iff, ← of?_ofRecords]
  cases ofRecords pieces log <;> simp [RecordFault.of?]

/-! ### Men -/

theorem lastOn_cons (r : PieceRecord) (pieces : List PieceRecord) (u : Square) :
    lastOn (r :: pieces) u =
      (lastOn pieces u).or (if r.square = u then some r else none) := by
  unfold lastOn
  rw [List.filter_cons]
  by_cases h : r.square = u
  · rw [if_pos (decide_eq_true h), if_pos h, List.getLast?_cons]
    cases (pieces.filter fun r => decide (r.square = u)).getLast? <;> rfl
  · rw [if_neg (by simp [h]), if_neg h, Option.or_none]

/-- The pieces last recorded stand where they are recorded, the men of other squares remain. -/
theorem pieceAt_foldlM_putRecord (h : pieces.foldlM putRecord b = .ok b') (u : Square) :
    b'.pieceAt u = ((lastOn pieces u).map PieceRecord.piece).or (b.pieceAt u) := by
  induction pieces generalizing b with
  | nil =>
      cases h
      rfl
  | cons r pieces ih =>
      rw [List.foldlM_cons, putRecord, Square.ofRowCol?] at h
      split_ifs at h with hon
      · have hput : (b.put r.piece).pieceAt u =
            if r.square = u then some r.piece else b.pieceAt u := by
          unfold put pieceAt
          rw [manAt_setMan]
          by_cases hu : r.square = u
          · subst hu
            rw [if_pos ⟨rfl, hon⟩, if_pos rfl]
            rfl
          · rw [if_neg fun e => hu e.1.symm, if_neg hu]
        refine (ih h).trans ?_
        rw [lastOn_cons]
        change Option.or _ ((b.put r.piece).pieceAt u) = _
        rw [hput]
        cases lastOn pieces u with
        | some r' => rfl
        | none => split_ifs <;> rfl
      · cases h

theorem manAt_foldlM_countRecord (h : log.foldlM countRecord b = .ok b') (u : Square) :
    b'.manAt u = b.manAt u := by
  induction log generalizing b with
  | nil =>
      cases h
      rfl
  | cons m log ih =>
      rw [List.foldlM_cons] at h
      cases hm : b.countRecord m with
      | error e => rw [hm] at h; cases h
      | ok b₁ =>
          rw [hm] at h
          obtain ⟨s, t, -, -, rfl⟩ := exists_of_countRecord hm
          exact (ih h).trans (manAt_countMove b m.player s t u)

/-! ### Visits -/

/-- Counting a log castles if a king's move to a wing leaves an unvisited king square. -/
theorem loggedRook_eq_some_iff {c : Color} {leg : RookLeg} :
    b.loggedRook c s t = some leg ↔
      b.visits c.kingHome = 0 ∧
        ∃ w, s = c.kingHome ∧ t = c.castlesTo w ∧ leg = c.rookLeg w := by
  unfold loggedRook isLoggedCastling
  simp only [Bool.and_eq_true, decide_eq_true_eq]
  constructor
  · intro h
    split_ifs at h with hcastling
    obtain ⟨⟨⟨rfl, hrow⟩, -⟩, hzero⟩ := hcastling
    obtain ⟨w, hcol, rfl⟩ := RookLeg.exists_wing h
    refine ⟨hzero, w, rfl, ?_, rfl⟩
    obtain ⟨row, col⟩ := t
    obtain rfl : row = c.homeRow := hrow
    obtain rfl : col = (c.castlesTo w).col := hcol
    cases w <;> rfl
  · rintro ⟨hzero, w, rfl, rfl, rfl⟩
    have hrow : (c.castlesTo w).row = c.kingHome.row := by cases w <;> rfl
    have htwo : TwoFiles c.kingHome (c.castlesTo w) := twoFiles_king c w
    rw [if_pos ⟨⟨⟨rfl, hrow⟩, htwo⟩, hzero⟩]
    exact RookLeg.ofKing?_castlesTo c w

theorem hits_eq_of_text (hs : s.OnBoard) (hu : u.OnBoard) :
    hits s u = if s.text = u.text then 1 else 0 := by
  unfold hits
  by_cases h : u = s
  · subst h
    rw [if_pos ⟨rfl, hs⟩, if_pos rfl]
  · rw [if_neg fun e => h e.1, if_neg fun e => h ((Square.text_inj hs hu).mp e).symm]

theorem rookHits_rookLeg (c : Color) (w : Wing) (u : Square) :
    rookHits (some (c.rookLeg w)) u = if u = c.rookHome w ∨ u = c.crosses w then 1 else 0 := by
  have hapart : c.rookHome w ≠ c.crosses w := by cases c <;> cases w <;> decide
  have hcrosses : (c.crosses w).OnBoard := by cases c <;> cases w <;> decide
  unfold rookHits hits Color.rookLeg
  simp only [c.onBoard_rookHome w, hcrosses, and_true]
  by_cases hu : u = c.rookHome w
  · subst hu
    simp [hapart]
  · simp [hu]

/-- No rook leg starts or ends on a king square. -/
theorem not_carriesRook_kingHome (m : MoveRecord) (before : List MoveRecord) (c : Color) :
    ¬ m.CarriesRook before c.kingHome := by
  rintro ⟨w, -, -, hu⟩
  revert hu
  generalize m.player = d
  cases c <;> cases d <;> cases w <;> decide

theorem logVisits_kingHome_eq_zero_iff (log : List MoveRecord) (c : Color) :
    logVisits log c.kingHome = 0 ↔ ∀ e ∈ log, ¬ e.Names c.kingHome := by
  have hrook : ((List.range log.length).countP fun i =>
      decide (∃ m ∈ log[i]?, m.CarriesRook (log.take i) c.kingHome)) = 0 := by
    rw [List.countP_eq_zero]
    intro i _ h
    obtain ⟨m, -, hm⟩ := of_decide_eq_true h
    exact not_carriesRook_kingHome m _ c hm
  rw [logVisits, hrook, Nat.add_zero, Nat.add_eq_zero_iff, List.countP_eq_zero, List.countP_eq_zero]
  simp only [decide_eq_true_eq, MoveRecord.Names, not_or]
  exact forall₂_and.symm

/-- One more entry counts for the squares it names and for those of its rook. -/
theorem logVisits_append (log : List MoveRecord) (m : MoveRecord) (u : Square) :
    logVisits (log ++ [m]) u = logVisits log u +
      ((if m.source = u.text then 1 else 0) + (if m.target = u.text then 1 else 0)) +
      if m.CarriesRook log u then 1 else 0 := by
  have hbefore : ((List.range log.length).countP fun i =>
        decide (∃ e ∈ (log ++ [m])[i]?, e.CarriesRook ((log ++ [m]).take i) u)) =
      (List.range log.length).countP fun i =>
        decide (∃ e ∈ log[i]?, e.CarriesRook (log.take i) u) := by
    refine List.countP_congr fun i hi => ?_
    have hi' : i < log.length := List.mem_range.mp hi
    rw [List.getElem?_append_left hi', List.take_append_of_le_length hi'.le]
  have hlast : (log ++ [m])[log.length]? = some m := List.getElem?_concat_length
  unfold logVisits
  rw [List.countP_append, List.countP_append, List.countP_singleton, List.countP_singleton,
    List.length_append, List.length_singleton, List.range_succ, List.countP_append, hbefore,
    List.countP_singleton, hlast, List.take_left]
  simp only [decide_eq_true_eq, Option.mem_def, Option.some.injEq, exists_eq_left']
  omega

/-- The rook that is counted for an entry is that of the castling, if the entry castles. -/
theorem rookHits_loggedRook {m : MoveRecord}
    (hb : ∀ u, u.OnBoard → b.visits u = logVisits log u)
    (hs : readSquare m.source = .ok s) (ht : readSquare m.target = .ok t) (u : Square) :
    rookHits (b.loggedRook m.player s t) u = if m.CarriesRook log u then 1 else 0 := by
  obtain ⟨hson, hstext⟩ := text_of_readSquare hs
  obtain ⟨hton, httext⟩ := text_of_readSquare ht
  have hzero : b.visits m.player.kingHome = 0 ↔ ∀ e ∈ log, ¬ e.Names m.player.kingHome := by
    rw [hb _ m.player.onBoard_kingHome, logVisits_kingHome_eq_zero_iff]
  have hcastles : ∀ w, m.Castles log w ↔ b.visits m.player.kingHome = 0 ∧
      s = m.player.kingHome ∧ t = m.player.castlesTo w := by
    intro w
    rw [MoveRecord.Castles, hstext, httext, Square.text_inj hson m.player.onBoard_kingHome,
      Square.text_inj hton (m.player.onBoard_castlesTo w), hzero]
    tauto
  cases hleg : b.loggedRook m.player s t with
  | some leg =>
      obtain ⟨hunvisited, w, hking, hwing, rfl⟩ := loggedRook_eq_some_iff.mp hleg
      rw [rookHits_rookLeg]
      refine if_congr ⟨fun hu => ⟨w, by cases w <;> simp, ?_, hu⟩, ?_⟩ rfl rfl
      · exact (hcastles w).mpr ⟨hunvisited, hking, hwing⟩
      · rintro ⟨w', -, hm, hu⟩
        obtain rfl : w = w' := by
          have hcol := congrArg Square.col (hwing.symm.trans ((hcastles w').mp hm).2.2)
          revert hcol
          cases w <;> cases w' <;> simp [Color.castlesTo]
        exact hu
  | none =>
      refine (if_neg ?_).symm
      rintro ⟨w, -, hm, -⟩
      obtain ⟨hunvisited, hking, hwing⟩ := (hcastles w).mp hm
      rw [loggedRook_eq_some_iff.mpr ⟨hunvisited, w, hking, hwing, rfl⟩] at hleg
      cases hleg

/-- While a log is counted, the visits are those of the entries counted so far. -/
theorem visits_countMove_eq_logVisits {m : MoveRecord}
    (hb : ∀ u, u.OnBoard → b.visits u = logVisits log u)
    (hs : readSquare m.source = .ok s) (ht : readSquare m.target = .ok t) (hu : u.OnBoard) :
    (b.countMove m.player s t).visits u = logVisits (log ++ [m]) u := by
  obtain ⟨hson, hstext⟩ := text_of_readSquare hs
  obtain ⟨hton, httext⟩ := text_of_readSquare ht
  rw [visits_countMove, logVisits_append, hb u hu, rookHits_loggedRook hb hs ht u,
    hits_eq_of_text hson hu, hits_eq_of_text hton hu, hstext, httext]

theorem visits_foldlM_countRecord (h : log.foldlM countRecord b = .ok b')
    (hb : ∀ u, b.visits u = 0) (hu : u.OnBoard) : b'.visits u = logVisits log u := by
  induction log using List.reverseRecOn generalizing b' u with
  | nil =>
      cases h
      exact hb u
  | append_singleton log m ih =>
      rw [foldlM_countRecord_append] at h
      cases hlog : log.foldlM countRecord b with
      | error e => rw [hlog] at h; cases h
      | ok b₁ =>
          rw [hlog] at h
          replace h : b₁.countRecord m = .ok b' := h
          obtain ⟨s, t, hs, ht, rfl⟩ := exists_of_countRecord h
          exact visits_countMove_eq_logVisits (fun u hu => ih hlog hu) hs ht hu

/-! ### The board of records -/

/-- Each square of the board holds the piece last recorded there and has been visited as often as
the log says. -/
structure Reflects (b : Board) (pieces : List PieceRecord) (log : List MoveRecord) : Prop where
  pieceAt : ∀ u, u.OnBoard → b.pieceAt u = (lastOn pieces u).map PieceRecord.piece
  visits : ∀ u, u.OnBoard → b.visits u = logVisits log u

theorem reflects_ofRecords (h : ofRecords pieces log = .ok b) : b.Reflects pieces log := by
  unfold ofRecords at h
  cases hput : pieces.foldlM putRecord empty with
  | error e => rw [hput] at h; cases h
  | ok b₀ =>
      rw [hput] at h
      replace h : log.foldlM countRecord b₀ = .ok b := h
      constructor
      · intro u _
        have hempty : empty.pieceAt u = none := by rw [pieceAt, manAt_empty, Option.map_none]
        rw [pieceAt_congr (manAt_foldlM_countRecord h u), pieceAt_foldlM_putRecord hput, hempty,
          Option.or_none]
      · intro u hu
        refine visits_foldlM_countRecord h (fun u => ?_) hu
        rw [visits_foldlM_putRecord hput, visits_empty]

theorem manAt_eq_map_pieceAt (b : Board) (u : Square) :
    b.manAt u = (b.pieceAt u).map Piece.man := by
  unfold pieceAt
  cases b.manAt u <;> rfl

/-- Only one board reflects the records. -/
theorem Reflects.unique (h : b.Reflects pieces log) (h' : b'.Reflects pieces log) : b = b' := by
  refine ext_manAt (fun u => ?_) fun u => ?_
  · by_cases hu : u.OnBoard
    · rw [manAt_eq_map_pieceAt, manAt_eq_map_pieceAt, h.pieceAt u hu, h'.pieceAt u hu]
    · rw [manAt_of_not_onBoard hu, manAt_of_not_onBoard hu]
  · by_cases hu : u.OnBoard
    · rw [h.visits u hu, h'.visits u hu]
    · rw [Board.visits, Board.visits, dif_neg hu, dif_neg hu]

theorem exists_lastOn {r : PieceRecord} (h : r ∈ pieces) :
    ∃ r' ∈ pieces, r'.square = r.square ∧ lastOn pieces r.square = some r' := by
  unfold lastOn
  have hmem : r ∈ pieces.filter fun r' => decide (r'.square = r.square) := by simp [h]
  obtain ⟨r', hr'⟩ := Option.isSome_iff_exists.mp
    (List.getLast?_isSome.mpr (List.ne_nil_of_mem hmem))
  obtain ⟨hin, hsq⟩ := List.mem_filter.mp (List.mem_of_getLast? hr')
  exact ⟨r', hin, of_decide_eq_true hsq, hr'⟩

/-- Pieces recorded in another order make the same board, as long as the last one on each square
is the same. -/
theorem ofRecords_of_lastOn {pieces' : List PieceRecord} (h : ofRecords pieces log = .ok b)
    (hlast : ∀ u, lastOn pieces' u = lastOn pieces u) : ofRecords pieces' log = .ok b := by
  obtain ⟨hon, htexts⟩ := exists_ofRecords_iff.mp ⟨b, h⟩
  have hon' : ∀ r ∈ pieces', r.square.OnBoard := by
    intro r hr
    obtain ⟨r₁, -, -, hlast₁⟩ := exists_lastOn hr
    have hmem := hlast₁.symm.trans (hlast r.square)
    obtain ⟨hin, hsq⟩ := List.mem_filter.mp (List.mem_of_getLast? hmem.symm)
    rw [← of_decide_eq_true hsq]
    exact hon r₁ hin
  obtain ⟨b', hb'⟩ := exists_ofRecords_iff.mpr ⟨hon', htexts⟩
  obtain ⟨hpieces, hvisits⟩ := reflects_ofRecords hb'
  have hsame : b'.Reflects pieces log := ⟨fun u hu => by rw [hpieces u hu, hlast], hvisits⟩
  rw [hb', hsame.unique (reflects_ofRecords h)]

end Board

namespace Arrays

variable {b : Board} {pieces : List PieceRecord} {log : List MoveRecord}

/-- Each cell holds the piece last recorded on its square, and its counter the visits of the log. -/
structure Reflects (a : Arrays) (pieces : List PieceRecord) (log : List MoveRecord) : Prop where
  squares : ∀ u, u.OnBoard → a.squares.get u = .ok ((lastOn pieces u).map PieceRecord.piece)
  counts : ∀ u, u.OnBoard → ∃ n, a.counts.get u = .ok n ∧ n.toNat = logVisits log u

theorem reflects_arrays (h : b.Reflects pieces log) (hb : b.Fits) :
    b.arrays.Reflects pieces log := by
  constructor
  · intro u hu
    rw [← h.pieceAt u hu]
    exact b.get_squares hu
  · intro u hu
    refine ⟨_, b.get_counts hu, ?_⟩
    rw [UInt32.toNat_ofNat_of_lt' (hb u), h.visits u hu]

/-- **Any records make the board they say, or are refused.**  Let the pieces be any list of bytes
and the log any list of texts.  A board is made of them exactly if every piece lies on the board and
every square of the log is a letter `a` to `h` and a digit `1` to `8`; otherwise the record is
refused as corrupt, with the first fault in the order of reading.  On the board each square holds
the piece last recorded there, so the order of pieces on different squares does not matter, and has
been visited once for each entry of the log that goes from there, once for each that goes there and
once for each castling whose rook starts or ends there.  With fewer than `2 ^ 31` entries the same
holds of the arrays: making them never fails, every piece names its cell, and no counter runs
over. -/
theorem ofRecords_reflects (pieces : List PieceRecord) (log : List MoveRecord) :
    ((∃ b, Board.ofRecords pieces log = .ok b) ↔
      (∀ r ∈ pieces, r.row < 8 ∧ r.col < 8) ∧
        ∀ m ∈ log, Square.IsText m.source ∧ Square.IsText m.target) ∧
    (∀ e, (Board.ofRecords pieces log).mapError Refusal.ofRecordFault = .error e ↔
      ∃ f, (recordFaults pieces log).head? = some f ∧ e = .store (.corrupt f.message)) ∧
    (∀ b, Board.ofRecords pieces log = .ok b → b.Reflects pieces log ∧
      ∀ pieces', (∀ u, lastOn pieces' u = lastOn pieces u) →
        Board.ofRecords pieces' log = .ok b) ∧
    (log.length < 2 ^ 31 → ∃ x, ofRecords pieces log = .ok x ∧
      x = (Board.ofRecords pieces log).map Board.arrays ∧
      ∀ a, x = .ok a → a.Celled ∧ a.Reflects pieces log) := by
  refine ⟨Board.exists_ofRecords_iff, fun e => ?_, fun b hb => ?_, fun hlog => ?_⟩
  · constructor
    · intro h
      cases hb : Board.ofRecords pieces log with
      | ok b => rw [hb] at h; cases h
      | error f =>
          rw [hb] at h
          cases h
          exact ⟨f, Board.ofRecords_eq_error_iff.mp hb, rfl⟩
    · rintro ⟨f, hf, rfl⟩
      rw [Board.ofRecords_eq_error_iff.mpr hf]
      rfl
  · exact ⟨Board.reflects_ofRecords hb, fun pieces' => Board.ofRecords_of_lastOn hb⟩
  · refine ⟨_, Board.ofRecords_arrays pieces (by omega), rfl, fun a ha => ?_⟩
    cases hb : Board.ofRecords pieces log with
    | error f => rw [hb] at ha; cases ha
    | ok b =>
        rw [hb] at ha
        cases ha
        have hfits : b.Fits := fun u => by
          have := Board.visits_ofRecords_le hb u
          omega
        exact ⟨celled_arrays b, reflects_arrays (Board.reflects_ofRecords hb) hfits⟩

/-- A log that is no game, on a board with two pieces recorded on one square.  Black's first entry
names white's king square, so white's castling carries no rook; black's own castling does. -/
theorem ofRecords_reflects_nonsense :
    let pieces : List PieceRecord :=
      [⟨.white, .king, 7, 4⟩, ⟨.black, .queen, 7, 4⟩, ⟨.white, .pawn, 0, 0⟩]
    let log : List MoveRecord :=
      [⟨.black, "e1", "g1"⟩, ⟨.white, "e1", "g1"⟩, ⟨.black, "e8", "c8"⟩, ⟨.white, "a8", "a8"⟩]
    log.length < 2 ^ 31 ∧ ∃ b, Board.ofRecords pieces log = .ok b ∧
      ofRecords pieces log = .ok (.ok b.arrays) ∧
      b.pieceAt ⟨7, 4⟩ = some ⟨.queen, .black, ⟨7, 4⟩⟩ ∧ b.visits ⟨7, 4⟩ = 2 ∧
      b.visits ⟨7, 5⟩ = 0 ∧ b.visits ⟨0, 3⟩ = 1 ∧ b.visits ⟨0, 0⟩ = 3 := by
  intro pieces log
  have hlog : log.length < 2 ^ 31 := by decide
  obtain ⟨hok, -, hboard, harrays⟩ := ofRecords_reflects pieces log
  have htexts : ∀ m ∈ log,
      (Square.ofText? m.source).isSome = true ∧ (Square.ofText? m.target).isSome = true := by
    decide +kernel
  obtain ⟨b, hb⟩ := hok.mpr ⟨by decide, fun m hm =>
    (htexts m hm).imp Square.isSome_ofText?_iff.mp Square.isSome_ofText?_iff.mp⟩
  obtain ⟨x, hx, rfl, -⟩ := harrays hlog
  obtain ⟨⟨hpieces, hvisits⟩, -⟩ := hboard b hb
  rw [hb] at hx
  refine ⟨hlog, b, hb, hx, ?_, ?_, ?_, ?_, ?_⟩
  · rw [hpieces _ (by decide)]
    decide +kernel
  all_goals
    rw [hvisits _ (by decide)]
    decide +kernel

end Arrays
end LiveChess
