import Mathlib.Tactic
import LiveChess.Board.Record
import LiveChess.Proofs.Squares

/-! # Lines of play

What a played move does to a board, read square by square: `manAt_relocate` and `visits_relocate`
for the carrying of one man, `admits_spec` for what every admitted move satisfies and
`carriedRook_spec` for the moves that carry a rook along.  A line of play is a list of plies;
`playAll?` plays it from a board, and `visits_playAll_le` bounds every visit count by the length
of the line. -/

namespace LiveChess

/-- A piece and the square it is played to. -/
structure Ply where
  piece : Piece
  target : Square
deriving DecidableEq, Repr

/-- The log entry of a ply. -/
def Ply.record (m : Ply) : MoveRecord := ⟨m.piece.color, m.piece.square.text, m.target.text⟩

/-- The squares that a ply empties or fills: where it starts and ends, and where the rook does that
it carries along. -/
def Ply.squares (m : Ply) : List Square :=
  m.piece.square :: m.target ::
    match Board.carriedRook m.piece m.target with
    | some leg => [leg.source, leg.target]
    | none => []

theorem RookLeg.ofKing?_eq_some {row col : UInt8} {leg : RookLeg}
    (h : RookLeg.ofKing? row col = some leg) :
    col = 6 ∧ leg = ⟨⟨row, 7⟩, ⟨row, 5⟩⟩ ∨ col = 2 ∧ leg = ⟨⟨row, 0⟩, ⟨row, 3⟩⟩ := by
  unfold RookLeg.ofKing? at h
  split_ifs at h with h6 h2
  · exact .inl ⟨h6, (Option.some.inj h).symm⟩
  · exact .inr ⟨h2, (Option.some.inj h).symm⟩

/-- The rook starts on a file of its own and lands on the board. -/
theorem RookLeg.ofKing?_apart {row col : UInt8} {leg : RookLeg}
    (h : RookLeg.ofKing? row col = some leg) :
    leg.target.row = row ∧ leg.target.col < 8 ∧ leg.source.col ≠ col ∧ leg.source.col ≠ 4 := by
  rcases ofKing?_eq_some h with ⟨rfl, rfl⟩ | ⟨rfl, rfl⟩
  · exact ⟨rfl, show (5 : UInt8) < 8 by decide, show (7 : UInt8) ≠ 6 by decide,
      show (7 : UInt8) ≠ 4 by decide⟩
  · exact ⟨rfl, show (3 : UInt8) < 8 by decide, show (0 : UInt8) ≠ 2 by decide,
      show (0 : UInt8) ≠ 4 by decide⟩

theorem RookLeg.onBoard_of_ofKing? {row col : UInt8} {leg : RookLeg} (hrow : row < 8)
    (h : RookLeg.ofKing? row col = some leg) : leg.source.OnBoard ∧ leg.target.OnBoard := by
  rcases ofKing?_eq_some h with ⟨-, rfl⟩ | ⟨-, rfl⟩
  · exact ⟨⟨hrow, show (7 : UInt8) < 8 by decide⟩, hrow, show (5 : UInt8) < 8 by decide⟩
  · exact ⟨⟨hrow, show (0 : UInt8) < 8 by decide⟩, hrow, show (3 : UInt8) < 8 by decide⟩

namespace Board

/-- Play a line, if every ply of it may be played in its turn. -/
def playAll? (b : Board) : List Ply → Option Board
  | [] => some b
  | m :: ms =>
    match b.play? m.piece m.target with
    | some (_, b) => b.playAll? ms
    | none => none

/-- What one visit of `s` adds to the count of `u`. -/
def hits (s u : Square) : Nat := if u = s ∧ s.OnBoard then 1 else 0

/-- What the rook of a castling adds to the count of `u`. -/
def rookHits (leg : Option RookLeg) (u : Square) : Nat :=
  match leg with
  | some leg => hits leg.source u + hits leg.target u
  | none => 0

variable {b b' : Board} {p : Piece} {s t u : Square} {leg : RookLeg}

/-! ### Reading squares -/

theorem manAt_of_not_onBoard (h : ¬ s.OnBoard) : b.manAt s = none := dif_neg h

theorem onBoard_of_manAt {m : Man} (h : b.manAt s = some m) : s.OnBoard := by
  by_contra hs
  rw [manAt_of_not_onBoard hs] at h
  cases h

theorem pieceAt_eq_some_iff : b.pieceAt s = some p ↔ p.square = s ∧ b.manAt s = some p.man := by
  obtain ⟨k, c, q⟩ := p
  unfold pieceAt Piece.man Man.on
  cases b.manAt s with
  | none => simp
  | some m =>
      obtain ⟨k', c'⟩ := m
      simp only [Option.map_some, Option.some.injEq, Piece.mk.injEq, Man.mk.injEq]
      constructor
      · rintro ⟨rfl, rfl, rfl⟩
        exact ⟨rfl, rfl, rfl⟩
      · rintro ⟨rfl, rfl, rfl⟩
        exact ⟨rfl, rfl, rfl⟩

theorem mem_pieces : p ∈ b.pieces ↔ b.manAt p.square = some p.man := by
  simp only [pieces, List.mem_filterMap, pieceAt_eq_some_iff, Square.mem_all]
  constructor
  · rintro ⟨s, -, rfl, h⟩
    exact h
  · intro h
    exact ⟨p.square, onBoard_of_manAt h, rfl, h⟩

theorem visits_visit_add (b : Board) (s u : Square) :
    (b.visit s).visits u = b.visits u + hits s u := by
  rw [visits_visit, hits]
  split_ifs <;> rfl

theorem manAt_relocate (ht : t.OnBoard) :
    (b.relocate s t).manAt u =
      if u = t then b.manAt s else if u = s then none else b.manAt u := by
  simp only [relocate, manAt_visit, manAt_setMan, ht, and_true]
  split_ifs with h1 h2 h3 h4
  · rfl
  · rfl
  · exact absurd h2.1 h3
  · subst h4
    exact manAt_of_not_onBoard fun hs => h2 ⟨rfl, hs⟩
  · rfl

theorem visits_relocate (b : Board) (s t u : Square) :
    (b.relocate s t).visits u = ((b.visit s).visit t).visits u := by
  simp only [relocate, visits_visit_add, visits_setMan]

/-! ### Admitted moves -/

/-- What every admitted move satisfies. -/
theorem admits_spec (h : b.admits p t = true) :
    t.OnBoard ∧ p.square.OnBoard ∧ b.manAt p.square = some p.man ∧
      (∀ m, b.manAt t = some m → m.color ≠ p.color) ∧ p.square ≠ t := by
  simp only [admits, Bool.and_eq_true, decide_eq_true_eq, Bool.not_eq_true'] at h
  obtain ⟨⟨⟨ht, hp⟩, hown⟩, -⟩ := h
  have hman := (pieceAt_eq_some_iff.mp hp).2
  have hfree : ∀ m, b.manAt t = some m → m.color ≠ p.color := by
    intro m hm
    rw [hm] at hown
    simpa using hown
  refine ⟨ht, onBoard_of_manAt hman, hman, hfree, ?_⟩
  rintro rfl
  exact hfree p.man hman rfl

theorem castling?_eq_some (h : b.castling? p t = some leg) :
    p.kind = .king ∧ p.square = p.color.kingHome ∧ t.row = p.color.homeRow ∧
      RookLeg.ofKing? t.row t.col = some leg ∧ b.castlingReady p.color leg = true ∧
      ∀ q ∈ [p.square, leg.target, t], b.isAttacked q p.color.opponent = false := by
  unfold castling? at h
  split_ifs at h with hk
  obtain ⟨hleg, hready⟩ := Option.filter_eq_some_iff.mp h
  simp only [Bool.and_eq_true, List.all_eq_true, Bool.not_eq_true'] at hready
  exact ⟨hk.1, hk.2.1, hk.2.2, hleg, hready.1, hready.2⟩

theorem castlingReady_iff {c : Color} : b.castlingReady c leg = true ↔
    b.manAt leg.source = some ⟨.rook, c⟩ ∧ b.visits c.kingHome = 0 ∧ b.visits leg.source = 0 ∧
      b.isBlocked c.kingHome leg.source = false := by
  simp only [castlingReady, Bool.and_eq_true, decide_eq_true_eq, Bool.not_eq_true', and_assoc]

/-- Two files apart. -/
abbrev TwoFiles (s t : Square) : Prop :=
  s.col.toNat = t.col.toNat + 2 ∨ t.col.toNat = s.col.toNat + 2

theorem carriedRook_eq_some : carriedRook p t = some leg ↔
    (p.kind = .king ∧ TwoFiles p.square t) ∧ RookLeg.ofKing? p.square.row t.col = some leg := by
  unfold carriedRook
  split_ifs with h
  · exact ⟨fun e => ⟨h, e⟩, fun e => e.2⟩
  · exact ⟨fun e => (nomatch e), fun e => absurd e.1 h⟩

/-- An admitted king move of two files is a castling. -/
theorem castling?_isSome (h : b.admits p t = true) (hk : p.kind = .king)
    (h2 : TwoFiles p.square t) : (b.castling? p t).isSome = true := by
  obtain ⟨ht, hs, -⟩ := admits_spec h
  simp only [admits, hk, Bool.and_eq_true, Bool.or_eq_true] at h
  refine h.2.resolve_left fun hstep => ?_
  have := ((Square.isKingStep_iff hs ht).mp hstep).2
  omega

/-- An admitted move carries a rook only when it castles. -/
theorem carriedRook_spec (h : b.admits p t = true) (hc : carriedRook p t = some leg) :
    b.castling? p t = some leg := by
  obtain ⟨⟨hk, h2⟩, hleg⟩ := carriedRook_eq_some.mp hc
  obtain ⟨leg', hleg'⟩ := Option.isSome_iff_exists.mp (castling?_isSome h hk h2)
  obtain ⟨-, hhome, hrow, e, -⟩ := castling?_eq_some hleg'
  rw [hhome] at hleg
  rw [hrow] at e
  rw [hleg', ← e]
  exact hleg

/-! ### Where the men go -/

/-- A castling moves king and rook, and no other man. -/
theorem manAt_apply_of_castling (h : b.admits p t = true) (hc : carriedRook p t = some leg) :
    (b.apply p t).manAt u =
      if u = leg.target then some ⟨.rook, p.color⟩
      else if u = leg.source then none
      else if u = t then some p.man
      else if u = p.square then none
      else b.manAt u := by
  obtain ⟨ht, hs, hman, -⟩ := admits_spec h
  obtain ⟨-, hhome, hrow, hleg, hready, -⟩ := castling?_eq_some (carriedRook_spec h hc)
  have hrook := (castlingReady_iff.mp hready).1
  have hking : p.square.col = 4 := by rw [hhome]; rfl
  obtain ⟨hlrow, hlcol, hnt, hns⟩ := RookLeg.ofKing?_apart hleg
  have htarget : leg.target.OnBoard := ⟨hlrow ▸ ht.1, hlcol⟩
  have h1 : leg.source ≠ t := fun e => hnt (congrArg Square.col e)
  have h2 : leg.source ≠ p.square := fun e => hns ((congrArg Square.col e).trans hking)
  unfold apply
  rw [hc]
  simp only
  rw [manAt_relocate htarget, manAt_relocate ht, manAt_relocate ht, if_neg h1, if_neg h2, hrook,
    hman]

/-- Any other move moves one man. -/
theorem manAt_apply_of_plain (h : b.admits p t = true) (hc : carriedRook p t = none) :
    (b.apply p t).manAt u =
      if u = t then some p.man else if u = p.square then none else b.manAt u := by
  obtain ⟨ht, -, hman, -⟩ := admits_spec h
  unfold apply
  rw [hc]
  simp only
  rw [manAt_relocate ht, hman]

/-- A move leaves alone what stands on squares that it neither empties nor fills. -/
theorem manAt_apply_of_not_mem {m : Ply} (h : b.admits m.piece m.target = true)
    (hu : u ∉ m.squares) : (b.apply m.piece m.target).manAt u = b.manAt u := by
  simp only [Ply.squares, List.mem_cons, not_or] at hu
  obtain ⟨hs, ht, hrook⟩ := hu
  cases hc : carriedRook m.piece m.target with
  | none => rw [manAt_apply_of_plain h hc, if_neg ht, if_neg hs]
  | some leg =>
      rw [hc] at hrook
      simp only [List.mem_cons, List.not_mem_nil, or_false, not_or] at hrook
      rw [manAt_apply_of_castling h hc, if_neg hrook.2, if_neg hrook.1, if_neg ht, if_neg hs]

/-- A man that stands after a move is the one that was moved, the rook of a castling, or one that
stayed where it was. -/
theorem manAt_apply_cases (h : b.admits p t = true) {m : Man}
    (hu : (b.apply p t).manAt u = some m) :
    u = t ∧ m = p.man ∨ m = ⟨.rook, p.color⟩ ∨ u ≠ p.square ∧ b.manAt u = some m := by
  cases hc : carriedRook p t with
  | none =>
      rw [manAt_apply_of_plain h hc] at hu
      split_ifs at hu with h1 h2
      · exact .inl ⟨h1, (Option.some.inj hu).symm⟩
      · exact .inr (.inr ⟨h2, hu⟩)
  | some leg =>
      rw [manAt_apply_of_castling h hc] at hu
      split_ifs at hu with h1 h2 h3 h4
      · exact .inr (.inl (Option.some.inj hu).symm)
      · exact .inl ⟨h3, (Option.some.inj hu).symm⟩
      · exact .inr (.inr ⟨h4, hu⟩)

/-! ### Counting visits -/

theorem visits_apply (b : Board) (p : Piece) (t u : Square) :
    (b.apply p t).visits u =
      b.visits u + (hits p.square u + hits t u) + rookHits (carriedRook p t) u := by
  unfold apply rookHits
  cases carriedRook p t with
  | none => simp only [visits_relocate, visits_visit_add]; omega
  | some leg => simp only [visits_relocate, visits_visit_add]; omega

theorem hits_eq_zero_iff (hu : u.OnBoard) : hits s u = 0 ↔ u ≠ s := by
  unfold hits
  split_ifs with h
  · simp [h.1]
  · simp only [true_iff]
    rintro rfl
    exact h ⟨rfl, hu⟩

/-- A square is unvisited after a move if it was before and the move leaves it alone. -/
theorem visits_apply_eq_zero_iff (hu : u.OnBoard) (m : Ply) :
    (b.apply m.piece m.target).visits u = 0 ↔ b.visits u = 0 ∧ u ∉ m.squares := by
  rw [visits_apply, Ply.squares]
  cases carriedRook m.piece m.target with
  | none => simp [rookHits, hits_eq_zero_iff hu]
  | some leg => simp [rookHits, hits_eq_zero_iff hu, and_assoc]

theorem hits_le_file (s u : Square) : hits s u ≤ if u.col = s.col then 1 else 0 := by
  unfold hits
  split_ifs with h1 h2
  · exact le_refl 1
  · exact absurd (congrArg Square.col h1.1) h2
  all_goals omega

/-- King and rook of one castling touch four different files. -/
theorem castling_files (c : UInt8) :
    (if c = 4 then 1 else 0) + (if c = 6 then 1 else 0) +
        ((if c = 7 then 1 else 0) + (if c = 5 then 1 else 0)) ≤ 1 ∧
      (if c = 4 then 1 else 0) + (if c = 2 then 1 else 0) +
        ((if c = 0 then 1 else 0) + (if c = 3 then 1 else 0)) ≤ 1 := by
  constructor <;> split_ifs <;> simp_all

/-- No square is visited twice by one castling. -/
theorem hits_castling_le {row : UInt8} (hs : s.col = 4)
    (h : RookLeg.ofKing? row t.col = some leg) (u : Square) :
    hits s u + hits t u + rookHits (some leg) u ≤ 1 := by
  have h1 := hits_le_file s u
  have h2 := hits_le_file t u
  have h3 := Nat.add_le_add (hits_le_file leg.source u) (hits_le_file leg.target u)
  rw [hs] at h1
  rcases RookLeg.ofKing?_eq_some h with ⟨hcol, rfl⟩ | ⟨hcol, rfl⟩
  · rw [hcol] at h2
    exact (Nat.add_le_add (Nat.add_le_add h1 h2) h3).trans (castling_files u.col).1
  · rw [hcol] at h2
    exact (Nat.add_le_add (Nat.add_le_add h1 h2) h3).trans (castling_files u.col).2

/-- No square is visited twice by one admitted move. -/
theorem visits_apply_le (h : b.admits p t = true) (u : Square) :
    (b.apply p t).visits u ≤ b.visits u + 1 := by
  obtain ⟨-, -, -, -, hne⟩ := admits_spec h
  rw [visits_apply, Nat.add_assoc]
  refine Nat.add_le_add_left ?_ _
  cases hc : carriedRook p t with
  | none =>
      simp only [rookHits, hits]
      split_ifs with h1 h2
      · exact absurd (h1.1.symm.trans h2.1) hne
      all_goals omega
  | some leg =>
      obtain ⟨-, hhome, -, hleg, -⟩ := castling?_eq_some (carriedRook_spec h hc)
      have hking : p.square.col = 4 := by rw [hhome]; rfl
      exact hits_castling_le hking hleg u

/-! ### Lines -/

/-- A move may be played if it is admitted and, in check, ends the check. -/
theorem mem_moves_iff : t ∈ b.moves p ↔
    b.admits p t = true ∧ (b.inCheck p.color = true → b.leavesInCheck p t = false) := by
  have hadmitted : t ∈ b.admitted p ↔ b.admits p t = true := by
    rw [admitted, List.mem_filter, Square.mem_all]
    exact and_iff_right_of_imp fun h => (admits_spec h).1
  unfold moves
  split_ifs with hcheck
  · rw [List.mem_filter, hadmitted, Bool.not_eq_true']
    simp [hcheck]
  · rw [hadmitted]
    simp [hcheck]

theorem admits_of_mem_moves (h : t ∈ b.moves p) : b.admits p t = true := (mem_moves_iff.mp h).1

/-- Mated is in check with every admitted move of every man leaving the check. -/
theorem isCheckmate_iff {c : Color} : b.isCheckmate c = true ↔ b.inCheck c = true ∧
    ∀ p t, p.color = c → b.admits p t = true → b.leavesInCheck p t = true := by
  unfold isCheckmate
  rw [Bool.and_eq_true, List.all_eq_true]
  refine and_congr_right fun _ => ?_
  simp only [Bool.or_eq_true, decide_eq_true_eq, List.all_eq_true, admitted, List.mem_filter,
    Square.mem_all]
  constructor
  · intro h p t hc ha
    obtain ⟨ht, -, hman, -⟩ := admits_spec ha
    exact (h p (mem_pieces.mpr hman)).resolve_left (not_not.mpr hc) t ⟨ht, ha⟩
  · intro h p _
    by_cases hc : p.color = c
    · exact .inr fun t ht => h p t hc ht.2
    · exact .inl hc

/-- A side that is mated has no moves. -/
theorem moves_of_isCheckmate (h : b.isCheckmate p.color = true) : b.moves p = [] := by
  obtain ⟨hcheck, hall⟩ := isCheckmate_iff.mp h
  refine List.eq_nil_iff_forall_not_mem.mpr fun t ht => ?_
  obtain ⟨hadmits, hends⟩ := mem_moves_iff.mp ht
  have := hends hcheck
  rw [hall p t rfl hadmits] at this
  cases this

theorem play?_eq_some_iff {r : Placement} : b.play? p t = some (r, b') ↔
    t ∈ b.moves p ∧ r = b.placement p t ∧ b' = b.apply p t := by
  unfold play?
  split_ifs with hm
  · simp [hm, eq_comm]
  · simp [hm]

theorem playAll?_append (b : Board) (ms ns : List Ply) :
    b.playAll? (ms ++ ns) = (b.playAll? ms).bind (·.playAll? ns) := by
  induction ms generalizing b with
  | nil => rfl
  | cons m ms ih =>
      simp only [List.cons_append, playAll?]
      cases b.play? m.piece m.target with
      | none => rfl
      | some r => exact ih r.2

/-- What holds at the start of a line and is kept by every move of it holds at its end. -/
theorem playAll?_induction {P : List Ply → Board → Prop} (hnil : P [] b)
    (hstep : ∀ ms c m, P ms c → m.target ∈ c.moves m.piece →
      P (ms ++ [m]) (c.apply m.piece m.target)) :
    ∀ ms {b'}, b.playAll? ms = some b' → P ms b' := by
  intro ms
  induction ms using List.reverseRecOn with
  | nil =>
      intro b' h
      cases h
      exact hnil
  | append_singleton ms m ih =>
      intro b' h
      rw [playAll?_append] at h
      obtain ⟨c, hc, h⟩ := Option.bind_eq_some_iff.mp h
      simp only [playAll?] at h
      cases hp : c.play? m.piece m.target with
      | none => rw [hp] at h; cases h
      | some r =>
          rw [hp] at h
          cases h
          obtain ⟨ha, -, e⟩ := play?_eq_some_iff.mp hp
          rw [e]
          exact hstep ms c m (ih hc) ha

theorem visits_playAll_le {ms : List Ply} (h : b.playAll? ms = some b') (u : Square) :
    b'.visits u ≤ b.visits u + ms.length := by
  refine playAll?_induction (P := fun ms c => c.visits u ≤ b.visits u + ms.length) (by simp) ?_ ms h
  intro ms c m hc hm
  have := visits_apply_le (admits_of_mem_moves hm) u
  simp only [List.length_append, List.length_singleton]
  omega

end Board
end LiveChess
