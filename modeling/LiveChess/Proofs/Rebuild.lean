import LiveChess.Proofs.Play

/-! # Rebuilding boards from records

A board played to from a position without visits is rebuilt exactly by its piece records and the
log of the line (`ofRecords_of_playAll`).  Live play tells castling by a king going two files, the
rebuild by two files sideways from an unvisited king square; the two agree (`loggedRook_eq`) as
long as an unvisited king square holds no man of its own side but the king (`KingsHome`), which
every admitted move keeps. -/

namespace LiveChess.Board

variable {b b' r : Board} {p : Piece} {s t u : Square} {c : Color}

/-! ### Pieces -/

theorem foldlM_putRecord (b : Board) :
    ∀ ps : List Piece, (∀ p ∈ ps, p.square.OnBoard) →
      (ps.map Piece.toRecord).foldlM putRecord b = .ok (ps.foldl put b)
  | [], _ => rfl
  | p :: ps, h => by
      have hp : p.square.OnBoard := h p List.mem_cons_self
      have hput : b.putRecord p.toRecord = .ok (b.put p) := by
        have hsq : Square.ofRowCol? p.toRecord.row p.toRecord.col = some p.square := if_pos hp
        rw [putRecord, hsq]
        rfl
      rw [List.map_cons, List.foldlM_cons, hput]
      exact foldlM_putRecord (b.put p) ps fun q hq => h q (List.mem_cons_of_mem _ hq)

theorem manAt_foldl_put (b r : Board) (u : Square) :
    ∀ l : List Square, (∀ s ∈ l, s.OnBoard) →
      ((l.filterMap b.pieceAt).foldl put r).manAt u =
        if u ∈ l ∧ (b.manAt u).isSome then b.manAt u else r.manAt u := by
  intro l
  induction l generalizing r with
  | nil => simp
  | cons s l ih =>
      intro h
      have hs : s.OnBoard := h s List.mem_cons_self
      have ih' := fun r => ih r fun s hs => h s (List.mem_cons_of_mem _ hs)
      rw [List.filterMap_cons]
      cases hm : b.manAt s with
      | none =>
          have e : b.pieceAt s = none := by simp [pieceAt, hm]
          rw [e, ih']
          by_cases hu : u = s
          · subst hu; simp [hm]
          · simp [hu]
      | some m =>
          have e : b.pieceAt s = some (m.on s) := by simp [pieceAt, hm]
          simp only [e, List.foldl_cons]
          rw [ih', put, manAt_setMan]
          by_cases hu : u = s
          · subst hu
            simp [hm, hs, Man.on, Piece.man]
          · simp [hu, Man.on]

theorem visits_foldl_put (b : Board) (u : Square) :
    ∀ ps : List Piece, (ps.foldl put b).visits u = b.visits u := by
  intro ps
  induction ps generalizing b with
  | nil => rfl
  | cons p ps ih =>
      rw [List.foldl_cons, ih]
      exact visits_setMan b p.square u _

theorem manAt_empty (u : Square) : empty.manAt u = none := by
  unfold manAt empty
  split <;> simp

theorem visits_empty (u : Square) : empty.visits u = 0 := by
  unfold visits empty
  split <;> simp

/-- The piece records of a board give back its men, all visits zero. -/
theorem exists_toRecords_foldlM (b : Board) :
    ∃ r, b.toRecords.foldlM putRecord empty = .ok r ∧
      (∀ u, r.manAt u = b.manAt u) ∧ ∀ u, r.visits u = 0 := by
  refine ⟨b.pieces.foldl put empty, foldlM_putRecord empty b.pieces ?_, ?_, ?_⟩
  · intro p hp
    exact onBoard_of_manAt (mem_pieces.mp hp)
  · intro u
    rw [pieces, manAt_foldl_put b empty u _ fun s => Square.mem_all.mp, manAt_empty]
    cases hm : b.manAt u with
    | none => simp
    | some m => simp [Square.mem_all, onBoard_of_manAt hm]
  · intro u
    rw [visits_foldl_put, visits_empty]

/-! ### Castling in play and in the log -/

/-- An unvisited king square holds no man of its own side but a king. -/
def KingsHome (b : Board) : Prop :=
  ∀ c k, b.visits (Color.kingHome c) = 0 → b.manAt (Color.kingHome c) = some ⟨k, c⟩ → k = .king

theorem visits_countMove (b : Board) (c : Color) (s t u : Square) :
    (b.countMove c s t).visits u =
      b.visits u + (hits s u + hits t u) + rookHits (b.loggedRook c s t) u := by
  unfold countMove rookHits
  cases b.loggedRook c s t with
  | none => simp only [visits_visit_add]; omega
  | some leg => simp only [visits_visit_add]; omega

theorem manAt_countMove (b : Board) (c : Color) (s t u : Square) :
    (b.countMove c s t).manAt u = b.manAt u := by
  unfold countMove
  cases b.loggedRook c s t <;> simp only [manAt_visit]

/-- The log tells castling as play does. -/
theorem loggedRook_eq (hk : b.KingsHome) (h : b.admits p t = true)
    (hv : ∀ u, r.visits u = b.visits u) :
    r.loggedRook p.color p.square t = carriedRook p t := by
  obtain ⟨ht, hs, hman, -, -⟩ := admits_spec h
  unfold loggedRook isLoggedCastling
  simp only [hv, Bool.and_eq_true, decide_eq_true_eq]
  by_cases hc : p.kind = .king ∧ TwoFiles p.square t
  · -- a castling king starts from its unvisited home square
    obtain ⟨leg, hleg⟩ := Option.isSome_iff_exists.mp (castling?_isSome h hc.1 hc.2)
    obtain ⟨-, hhome, hrow, -, hready, -⟩ := castling?_eq_some hleg
    have hzero := (castlingReady_iff.mp hready).2.1
    have hrow' : t.row = p.square.row := by rw [hrow, hhome]; rfl
    rw [← hhome] at hzero
    rw [if_pos ⟨⟨⟨hhome, hrow'⟩, hc.2⟩, hzero⟩, carriedRook, if_pos hc]
  · rw [carriedRook, if_neg hc]
    refine if_neg ?_
    rintro ⟨⟨⟨hhome, -⟩, h2⟩, hzero⟩
    rw [hhome] at hzero hman
    exact hc ⟨hk p.color p.kind hzero hman, h2⟩

/-- A move leaves alone the squares that are unvisited after it. -/
theorem manAt_apply_of_unvisited (h : b.admits p t = true) (hu : (b.apply p t).visits u = 0) :
    b.visits u = 0 ∧ (b.apply p t).manAt u = b.manAt u := by
  by_cases hb : u.OnBoard
  · obtain ⟨hv, hm⟩ := (visits_apply_eq_zero_iff hb ⟨p, t⟩).mp hu
    exact ⟨hv, manAt_apply_of_not_mem (m := ⟨p, t⟩) h hm⟩
  · rw [manAt_of_not_onBoard hb, manAt_of_not_onBoard hb]
    exact ⟨dif_neg hb, rfl⟩

theorem KingsHome.apply (hk : b.KingsHome) (h : b.admits p t = true) : (b.apply p t).KingsHome := by
  intro c k hv hm
  obtain ⟨hv', e⟩ := manAt_apply_of_unvisited h hv
  exact hk c k hv' (e ▸ hm)

/-! ### Whole lines -/

theorem foldlM_countRecord_append (b : Board) (log : List MoveRecord) (m : MoveRecord) :
    (log ++ [m]).foldlM countRecord b = (log.foldlM countRecord b).bind (·.countRecord m) := by
  rw [List.foldlM_append]
  cases log.foldlM countRecord b with
  | error e => rfl
  | ok b' =>
      show ([m].foldlM countRecord b') = b'.countRecord m
      rw [List.foldlM_cons]
      cases b'.countRecord m <;> rfl

theorem countRecord_record (b : Board) (m : Ply) (hs : m.piece.square.OnBoard)
    (ht : m.target.OnBoard) :
    b.countRecord m.record = .ok (b.countMove m.piece.color m.piece.square m.target) := by
  simp only [countRecord, readSquare, Ply.record, Square.ofText?_text hs, Square.ofText?_text ht]

/-- Counting the log of a line on any men gives the visits of the line's last board. -/
theorem exists_foldlM_countRecord (hk : b.KingsHome) (hv : ∀ u, r.visits u = b.visits u)
    {ms : List Ply} (h : b.playAll? ms = some b') :
    b'.KingsHome ∧ ∃ r', (ms.map Ply.record).foldlM countRecord r = .ok r' ∧
      (∀ u, r'.manAt u = r.manAt u) ∧ ∀ u, r'.visits u = b'.visits u := by
  refine playAll?_induction (P := fun ms b' => b'.KingsHome ∧
    ∃ r', (ms.map Ply.record).foldlM countRecord r = .ok r' ∧
      (∀ u, r'.manAt u = r.manAt u) ∧ ∀ u, r'.visits u = b'.visits u) ?_ ?_ ms h
  · exact ⟨hk, r, rfl, fun _ => rfl, hv⟩
  · rintro ms d m ⟨hkd, r', hr', hmen, hvis⟩ hm
    have ha := admits_of_mem_moves hm
    obtain ⟨ht, hs, -⟩ := admits_spec ha
    refine ⟨hkd.apply ha, r'.countMove m.piece.color m.piece.square m.target, ?_, ?_, ?_⟩
    · rw [List.map_append, List.map_singleton, foldlM_countRecord_append, hr']
      exact countRecord_record r' m hs ht
    · intro u
      rw [manAt_countMove, hmen]
    · intro u
      rw [visits_countMove, visits_apply, hvis, loggedRook_eq hkd ha hvis]

/-- The pieces a line ends with and its log give back the line's last board. -/
theorem ofRecords_toRecords (hv : ∀ u, b.visits u = 0) (hk : b.KingsHome) {ms : List Ply}
    (h : b.playAll? ms = some b') : ofRecords b'.toRecords (ms.map Ply.record) = .ok b' := by
  obtain ⟨r, hr, hmen, hvis⟩ := exists_toRecords_foldlM b'
  obtain ⟨-, r', hr', hmen', hvis'⟩ :=
    exists_foldlM_countRecord (r := r) hk (fun u => (hvis u).trans (hv u).symm) h
  have e : r' = b' := ext_manAt (fun u => (hmen' u).trans (hmen u)) hvis'
  unfold ofRecords
  rw [hr]
  simp only
  rw [hr', e]

theorem visits_start (u : Square) : start.visits u = 0 := by
  rw [start, ofPieces, visits_foldl_put, visits_empty]

theorem manAt_kingHome_start (c : Color) : start.manAt c.kingHome = some ⟨.king, c⟩ := by
  cases c <;> rfl

theorem kingsHome_start : start.KingsHome := by
  intro c k _ h
  rw [manAt_kingHome_start] at h
  cases h
  rfl

/-- **Rebuilding is exact.**  From a position without visits whose king squares hold no other man
of their side than a king, every line of play is rebuilt from the pieces it ends with and its log.
No square is visited more often than the line has plies, so visit counts of 32 bits hold every
line of fewer than `2 ^ 32`. -/
theorem ofRecords_of_playAll (hv : ∀ u, b.visits u = 0)
    (hk : ∀ c m, b.manAt (Color.kingHome c) = some m → m.color = c → m.kind = .king)
    {ms : List Ply} (h : b.playAll? ms = some b') :
    ofRecords b'.toRecords (ms.map Ply.record) = .ok b' ∧ ∀ u, b'.visits u ≤ ms.length := by
  constructor
  · exact ofRecords_toRecords hv (fun c k _ hm => hk c ⟨k, c⟩ hm rfl) h
  · intro u
    have := visits_playAll_le h u
    rw [hv u] at this
    omega

/-- White captures and castles, black's king moves. -/
def castlingLine : List Ply :=
  [⟨⟨.pawn, .white, ⟨6, 4⟩⟩, ⟨4, 4⟩⟩, ⟨⟨.knight, .white, ⟨7, 6⟩⟩, ⟨5, 5⟩⟩,
    ⟨⟨.pawn, .black, ⟨1, 4⟩⟩, ⟨3, 4⟩⟩, ⟨⟨.knight, .white, ⟨5, 5⟩⟩, ⟨3, 4⟩⟩,
    ⟨⟨.bishop, .white, ⟨7, 5⟩⟩, ⟨6, 4⟩⟩, ⟨⟨.king, .white, ⟨7, 4⟩⟩, ⟨7, 6⟩⟩,
    ⟨⟨.king, .black, ⟨0, 4⟩⟩, ⟨1, 4⟩⟩]

theorem ofRecords_castlingLine : (∀ u, start.visits u = 0) ∧
    (∀ c m, start.manAt (Color.kingHome c) = some m → m.color = c → m.kind = .king) ∧
    ∃ b, start.playAll? castlingLine = some b ∧
      ofRecords b.toRecords (castlingLine.map Ply.record) = .ok b ∧ ∀ u, b.visits u ≤ 7 := by
  have hk : ∀ c m, start.manAt (Color.kingHome c) = some m → m.color = c → m.kind = .king := by
    intro c m h _
    rw [manAt_kingHome_start] at h
    cases h
    rfl
  have hplay : (start.playAll? castlingLine).isSome = true := by decide +kernel
  obtain ⟨b, hb⟩ := Option.isSome_iff_exists.mp hplay
  exact ⟨visits_start, hk, b, hb, ofRecords_of_playAll visits_start hk hb⟩

end LiveChess.Board
