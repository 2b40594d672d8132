import LiveChess.Proofs.CheckedRules
import LiveChess.Proofs.KingSafety
import LiveChess.Proofs.Material

/-! # What a placement says

Playing a piece reports a placement and leaves a board.  `Placement.Describes` says that the report
is true and complete: what it names is what stood there, the squares it names hold what it says and
have been visited once more, and no other square has changed.  Arrays in which every piece names its
cell are those of a board (`exists_eq_arrays`), so this is also what happens to the arrays, which
still have that form afterwards; a piece that is refused leaves them as they are
(`placement_exact`). -/

namespace LiveChess

/-- The squares that a placement names. -/
def Placement.squares (r : Placement) : List Square :=
  r.source :: r.target ::
    match r.rookLeg with
    | some leg => [leg.source, leg.target]
    | none => []

/-- The report of a piece being played to a square is what became of the board. -/
structure Placement.Describes (r : Placement) (b : Board) (p : Piece) (t : Square) (b' : Board) :
    Prop where
  stood : b.pieceAt p.square = some p
  source : r.source = p.square
  target : r.target = t
  piece : r.piece = { p with square := t }
  captured : r.captured = b.pieceAt t
  enemy : ∀ q, b.pieceAt t = some q → q.color = p.color.opponent
  emptied : b'.pieceAt p.square = none
  landed : b'.pieceAt t = some { p with square := t }
  castling_iff : r.rookLeg.isSome = true ↔ Board.IsCastling p t
  wing : ∀ leg, r.rookLeg = some leg →
    p.square = p.color.kingHome ∧ ∃ w, t = p.color.castlesTo w ∧ leg = p.color.rookLeg w
  rook : ∀ leg, r.rookLeg = some leg →
    b.pieceAt leg.source = some ⟨.rook, p.color, leg.source⟩ ∧ b'.pieceAt leg.source = none ∧
      b.pieceAt leg.target = none ∧ b'.pieceAt leg.target = some ⟨.rook, p.color, leg.target⟩
  onBoard : ∀ u ∈ r.squares, u.OnBoard
  distinct : r.squares.Nodup
  others : ∀ u, u ∉ r.squares → b'.pieceAt u = b.pieceAt u
  visits : ∀ u, b'.visits u = b.visits u + if u ∈ r.squares then 1 else 0

namespace Board

variable {b b' : Board} {p : Piece} {s t u : Square} {c : Color} {leg : RookLeg}

/-! ### The squares of a move -/

theorem onBoard_of_mem_squares (h : b.admits p t = true) (hu : u ∈ Ply.squares ⟨p, t⟩) :
    u.OnBoard := by
  obtain ⟨ht, hs, -⟩ := admits_spec h
  unfold Ply.squares at hu
  cases hc : carriedRook p t with
  | none =>
      simp only [hc, List.mem_cons, List.not_mem_nil, or_false] at hu
      rcases hu with rfl | rfl
      · exact hs
      · exact ht
  | some leg =>
      obtain ⟨hsource, htarget⟩ := onBoard_of_carriedRook h hc
      simp only [hc, List.mem_cons, List.not_mem_nil, or_false] at hu
      rcases hu with rfl | rfl | rfl | rfl
      · exact hs
      · exact ht
      · exact hsource
      · exact htarget

/-- The four squares of a castling are different. -/
theorem nodup_squares_castling (c : Color) (w : Wing) :
    (Ply.squares ⟨c.king, c.castlesTo w⟩).Nodup := by
  cases c <;> cases w <;> decide

theorem nodup_squares (h : b.admits p t = true) : (Ply.squares ⟨p, t⟩).Nodup := by
  cases hc : carriedRook p t with
  | none =>
      have hne := (admits_spec h).2.2.2.2
      simp [Ply.squares, hc, hne]
  | some leg =>
      obtain ⟨⟨hk, h2⟩, -⟩ := carriedRook_eq_some.mp hc
      obtain ⟨c, w, rfl, rfl⟩ := exists_castling_of_twoFiles h hk h2
      exact nodup_squares_castling c w

/-- One visit each of different squares. -/
theorem sum_hits {l : List Square} (hl : l.Nodup) (hon : ∀ s ∈ l, s.OnBoard) (u : Square) :
    (l.map (hits · u)).sum = if u ∈ l then 1 else 0 := by
  induction l with
  | nil => rfl
  | cons s l ih =>
      obtain ⟨hs, hl⟩ := List.nodup_cons.mp hl
      rw [List.map_cons, List.sum_cons, ih hl fun s hs => hon s (List.mem_cons_of_mem _ hs), hits]
      by_cases hu : u = s
      · subst hu
        simp [hs, hon u List.mem_cons_self]
      · simp [hu]

/-- An admitted move visits each of its squares once, and no other. -/
theorem visits_apply_of_admits (h : b.admits p t = true) (u : Square) :
    (b.apply p t).visits u = b.visits u + if u ∈ Ply.squares ⟨p, t⟩ then 1 else 0 := by
  rw [← sum_hits (nodup_squares h) (fun s hs => onBoard_of_mem_squares h hs) u, visits_apply,
    Ply.squares]
  cases carriedRook p t with
  | none => simp [rookHits]
  | some leg => simp [rookHits, Nat.add_assoc]

/-! ### The men of a move -/

theorem pieceAt_congr (h : b.manAt u = b'.manAt u) : b.pieceAt u = b'.pieceAt u := by
  rw [pieceAt, pieceAt, h]

theorem pieceAt_eq_none_iff : b.pieceAt u = none ↔ b.manAt u = none := Option.map_eq_none_iff

/-- The man of a move is where it went and not where it came from. -/
theorem manAt_apply_ends (h : b.admits p t = true) :
    (b.apply p t).manAt p.square = none ∧ (b.apply p t).manAt t = some p.man := by
  have hne := (admits_spec h).2.2.2.2
  cases hc : carriedRook p t with
  | none =>
      rw [manAt_apply_of_plain h hc, manAt_apply_of_plain h hc, if_neg hne, if_pos rfl, if_pos rfl]
      exact ⟨rfl, rfl⟩
  | some leg =>
      have hdistinct := nodup_squares h
      simp only [Ply.squares, hc, List.nodup_cons, List.mem_cons, List.not_mem_nil, or_false,
        not_or] at hdistinct
      obtain ⟨⟨-, h1, h2⟩, ⟨h3, h4⟩, -⟩ := hdistinct
      rw [manAt_apply_of_castling h hc, manAt_apply_of_castling h hc, if_neg h2, if_neg h1,
        if_neg hne, if_pos rfl, if_neg h4, if_neg h3, if_pos rfl]
      exact ⟨rfl, rfl⟩

/-- The rook of a castling stood in its corner and stands where it went, on an empty square. -/
theorem manAt_apply_rook (h : b.admits p t = true) (hc : carriedRook p t = some leg) :
    b.manAt leg.source = some ⟨.rook, p.color⟩ ∧ (b.apply p t).manAt leg.source = none ∧
      b.manAt leg.target = none ∧ (b.apply p t).manAt leg.target = some ⟨.rook, p.color⟩ := by
  obtain ⟨hapart, hempty⟩ := manAt_crosses h hc
  obtain ⟨-, -, -, -, hready, -⟩ := castling?_eq_some (carriedRook_spec h hc)
  have hdistinct := nodup_squares h
  simp only [Ply.squares, hc, List.nodup_cons, List.mem_cons, List.not_mem_nil, or_false,
    not_or] at hdistinct
  obtain ⟨⟨-, -, h1⟩, ⟨-, h2⟩, -⟩ := hdistinct
  rw [manAt_relocate (admits_spec h).1, if_neg (Ne.symm h2), if_neg (Ne.symm h1)] at hempty
  rw [manAt_apply_of_castling h hc, manAt_apply_of_castling h hc, if_neg hapart, if_pos rfl,
    if_pos rfl]
  exact ⟨(castlingReady_iff.mp hready).1, rfl, hempty, rfl⟩

theorem wing_of_carriedRook (h : b.admits p t = true) (hc : carriedRook p t = some leg) :
    p.square = p.color.kingHome ∧ ∃ w, t = p.color.castlesTo w ∧ leg = p.color.rookLeg w := by
  obtain ⟨hp, hw⟩ := exists_wing_of_castling? (carriedRook_spec h hc)
  exact ⟨congrArg Piece.square hp, hw⟩

/-- An admitted move carries a rook along exactly if it is a castling. -/
theorem isSome_carriedRook_iff (h : b.admits p t = true) :
    (carriedRook p t).isSome = true ↔ IsCastling p t := by
  constructor
  · intro hsome
    obtain ⟨leg, hc⟩ := Option.isSome_iff_exists.mp hsome
    exact (carriedRook_eq_some.mp hc).1
  · rintro ⟨hk, h2⟩
    obtain ⟨c, w, rfl, rfl⟩ := exists_castling_of_twoFiles h hk h2
    exact Option.isSome_iff_exists.mpr ⟨_, carriedRook_king c w⟩

/-- What an admitted move reports is what it does. -/
theorem describes_placement (h : b.admits p t = true) :
    (b.placement p t).Describes b p t (b.apply p t) := by
  obtain ⟨-, -, hman, hfree, hne⟩ := admits_spec h
  obtain ⟨hleft, hlanded⟩ := manAt_apply_ends h
  refine ⟨pieceAt_eq_some_iff.mpr ⟨rfl, hman⟩, rfl, rfl, rfl, if_neg (Ne.symm hne), fun q hq => ?_,
    pieceAt_eq_none_iff.mpr hleft, pieceAt_eq_some_iff.mpr ⟨rfl, hlanded⟩,
    isSome_carriedRook_iff h, fun leg => wing_of_carriedRook h, fun leg hc => ?_,
    fun u hu => onBoard_of_mem_squares h hu, nodup_squares h, fun u hu => ?_,
    visits_apply_of_admits h⟩
  · exact Color.eq_opponent_of_ne (hfree q.man (pieceAt_eq_some_iff.mp hq).2)
  · obtain ⟨h1, h2, h3, h4⟩ := manAt_apply_rook h hc
    exact ⟨pieceAt_eq_some_iff.mpr ⟨rfl, h1⟩, pieceAt_eq_none_iff.mpr h2,
      pieceAt_eq_none_iff.mpr h3, pieceAt_eq_some_iff.mpr ⟨rfl, h4⟩⟩
  · exact pieceAt_congr (manAt_apply_of_not_mem (m := ⟨p, t⟩) h hu)

end Board

/-! ### Arrays of boards -/

namespace Arrays

variable {a : Arrays} {b : Board} {p : Piece} {t : Square}

/-- Every piece names the square of its cell. -/
def Celled (a : Arrays) : Prop :=
  ∀ s p, s.OnBoard → a.squares.get s = .ok (some p) → p.square = s

/-- No count is at its greatest. -/
def Roomy (a : Arrays) : Prop :=
  ∀ s n, s.OnBoard → a.counts.get s = .ok n → n.toNat + 1 < 2 ^ 32

/-- Try to play a piece.  If it is played, what it did is reported, and the arrays are those
afterwards; if it is refused, nothing is reported. -/
def tryPlay (a : Arrays) (p : Piece) (t : Square) : Checked (Option Placement × Arrays) := do
  let placed ← a.placePiece p t
  match placed with
  | some (r, moved) => pure (some r, moved)
  | none => pure (none, a)

theorem celled_arrays (b : Board) : b.arrays.Celled :=
  fun _ _ hs h => Board.square_of_get_squares hs h

/-- The man in a cell. -/
def manIn (a : Arrays) (s : Square) : Option Man :=
  match a.squares.get s with
  | .ok x => x.map (·.man)
  | .error _ => none

/-- The number in a cell. -/
def countIn (a : Arrays) (s : Square) : Nat :=
  match a.counts.get s with
  | .ok n => n.toNat
  | .error _ => 0

/-- Arrays whose pieces name their cells are those of a board. -/
theorem exists_eq_arrays (h : a.Celled) : ∃ b : Board, a = b.arrays ∧ (a.Roomy → b.Roomy) := by
  refine ⟨.tabulate a.manIn a.countIn, ?_, fun hroom u => ?_⟩
  · obtain ⟨squares, counts⟩ := a
    unfold Board.arrays
    congr 1
    · refine Grid.ext_get fun s hs => ?_
      obtain ⟨x, hx⟩ := squares.exists_get hs
      rw [Board.get_squares _ hs, Board.pieceAt, Board.manAt_tabulate, if_pos hs, manIn, hx]
      cases x with
      | none => rfl
      | some p =>
          obtain ⟨k, c, q⟩ := p
          obtain rfl : q = s := h s _ hs hx
          rfl
    · refine Grid.ext_get fun s hs => ?_
      obtain ⟨n, hn⟩ := counts.exists_get hs
      rw [Board.get_counts _ hs, Board.visits_tabulate, if_pos hs, countIn, hn, UInt32.ofNat_toNat]
  · rw [Board.visits_tabulate]
    split_ifs with hu
    · obtain ⟨n, hn⟩ := a.counts.exists_get hu
      rw [countIn, hn]
      exact hroom u n hu hn
    · decide

theorem tryPlay_arrays (h : b.Roomy) (p : Piece) (t : Square) :
    b.arrays.tryPlay p t =
      match b.play? p t with
      | some (r, b') => .ok (some r, b'.arrays)
      | none => .ok (none, b.arrays) := by
  unfold tryPlay
  rw [Board.placePiece_arrays h, Checked.ok_bind]
  cases b.play? p t <;> rfl

theorem roomy_arrays (h : b.Roomy) : b.arrays.Roomy := by
  intro s n hs hn
  have heq : n = .ofNat (b.visits s) := Except.ok.inj (hn.symm.trans (b.get_counts hs))
  rw [heq, UInt32.toNat_ofNat_of_lt' (h.fits s)]
  exact h s

/-- **A placement describes exactly what happened.**  Arrays in which every piece names its cell and
no count is at its greatest are those of a board.  Try to play any piece on them, standing on the
board or not, to any square.  Nothing fails, no count runs over, and the arrays afterwards are again
those of a board, every piece naming its cell.  If the piece is refused, the board is as before.  If
a placement is reported, the board is the one that the rules lead to, and the placement describes
what became of it: the piece, where it stood and what it took, which was the opponent's; the rook of
a castling, and of a castling only; the squares that were left and entered, each visited once more,
and no other square changed. -/
theorem placement_exact :
    (∀ a : Arrays, a.Celled ∧ a.Roomy ↔ ∃ b : Board, a = b.arrays ∧ b.Roomy) ∧
    ∀ {b : Board}, b.Roomy → ∀ (p : Piece) (t : Square),
      ∃ (outcome : Option Placement) (b' : Board),
        b.arrays.tryPlay p t = .ok (outcome, b'.arrays) ∧ b'.Fits ∧ b'.arrays.Celled ∧
        (outcome = none → b.play? p t = none ∧ b' = b) ∧
        ∀ r, outcome = some r → b.play? p t = some (r, b') ∧ r.Describes b p t b' := by
  refine ⟨fun a => ⟨fun h => ?_, ?_⟩, fun {b} hroom p t => ?_⟩
  · obtain ⟨b, hb, hroom⟩ := exists_eq_arrays h.1
    exact ⟨b, hb, hroom h.2⟩
  · rintro ⟨b, rfl, hroom⟩
    exact ⟨celled_arrays b, roomy_arrays hroom⟩
  · have htry := tryPlay_arrays hroom p t
    cases hplay : b.play? p t with
    | none =>
        rw [hplay] at htry
        exact ⟨none, b, htry, hroom.fits, celled_arrays b, fun _ => ⟨rfl, rfl⟩,
          fun r hr => nomatch hr⟩
    | some placed =>
        obtain ⟨r, b'⟩ := placed
        rw [hplay] at htry
        obtain ⟨hmem, rfl, rfl⟩ := Board.play?_eq_some_iff.mp hplay
        have hadmits := Board.admits_of_mem_moves hmem
        refine ⟨_, _, htry, hroom.fits_apply hadmits, celled_arrays _, (fun h => nomatch h), ?_⟩
        intro r hr
        cases hr
        exact ⟨rfl, Board.describes_placement hadmits⟩

/-- White castles: the report names the rook, which ends up next to the king, and the four squares
are visited once.  Then the same piece, no longer on its square, is refused. -/
theorem placement_of_castling :
    let king := Color.white.king
    let b := Board.ofPieces [king, ⟨.rook, .white, ⟨7, 7⟩⟩, ⟨.king, .black, ⟨0, 4⟩⟩]
    b.Roomy ∧ ∃ (r : Placement) (b' : Board),
      b.arrays.tryPlay king ⟨7, 6⟩ = .ok (some r, b'.arrays) ∧
      r.rookLeg = some ⟨⟨7, 7⟩, ⟨7, 5⟩⟩ ∧ b'.pieceAt ⟨7, 5⟩ = some ⟨.rook, .white, ⟨7, 5⟩⟩ ∧
      b'.visits ⟨7, 5⟩ = 1 ∧ b'.visits ⟨7, 4⟩ = 1 ∧ b'.visits ⟨0, 4⟩ = 0 ∧
      b'.arrays.tryPlay king ⟨7, 6⟩ = .ok (none, b'.arrays) := by
  intro king b
  have hvisits : ∀ u, b.visits u = 0 := fun u =>
    (Board.visits_foldl_put Board.empty u _).trans (Board.visits_empty u)
  have hroom : b.Roomy := fun u => by
    rw [hvisits]
    decide
  have hplayed : (b.play? king ⟨7, 6⟩).isSome = true := by decide +kernel
  have hcarried : Board.carriedRook king ⟨7, 6⟩ = some ⟨⟨7, 7⟩, ⟨7, 5⟩⟩ := rfl
  obtain ⟨outcome, b', htry, -, -, hrefused, hdescribed⟩ := placement_exact.2 hroom king ⟨7, 6⟩
  cases outcome with
  | none =>
      rw [(hrefused rfl).1] at hplayed
      cases hplayed
  | some r =>
      obtain ⟨hplay, hr⟩ := hdescribed r rfl
      have hleg : r.rookLeg = some ⟨⟨7, 7⟩, ⟨7, 5⟩⟩ := by
        obtain ⟨-, rfl, -⟩ := Board.play?_eq_some_iff.mp hplay
        exact hcarried
      have hsquares : r.squares = [⟨7, 4⟩, ⟨7, 6⟩, ⟨7, 7⟩, ⟨7, 5⟩] := by
        rw [Placement.squares, hleg, hr.source, hr.target]
        rfl
      have hvisited : ∀ u, b'.visits u = if u ∈ r.squares then 1 else 0 := fun u => by
        rw [hr.visits, hvisits, Nat.zero_add]
      have hroom' : b'.Roomy := fun u => by
        rw [hvisited]
        split_ifs <;> decide
      obtain ⟨outcome, b'', htry', -, -, hsame, hagain⟩ := placement_exact.2 hroom' king ⟨7, 6⟩
      refine ⟨hroom, r, b', htry, hleg, (hr.rook _ hleg).2.2.2, ?_, ?_, ?_, ?_⟩
      · rw [hvisited, hsquares]
        decide
      · rw [hvisited, hsquares]
        decide
      · rw [hvisited, hsquares]
        decide
      · cases outcome with
        | none => rw [htry', (hsame rfl).2]
        | some r' =>
            -- the king would have to stand on the square that it has left
            have hstood := (hagain r' rfl).2.stood
            rw [show b'.pieceAt king.square = none from hr.emptied] at hstood
            cases hstood

end Arrays
end LiveChess
