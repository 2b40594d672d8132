import LiveChess.Proofs.CheckedRules
import LiveChess.Proofs.Lines

/-! # How the men move

The rules of a single move in the words of the game, in whole numbers of rows and columns: lines over
empty squares, jumps, the three moves of a pawn, the step of a king and its castling.  `Board.Goes`
puts them together by kind.  A move is admitted exactly if its piece stands where it says, its target
lies on the board and holds no man of its side, and the rules let the piece go there
(`admits_iff_goes`).  The line that a rook, bishop or queen looks along is walked square by square,
and every such walk has an end (`walksTo_iff`). -/

namespace LiveChess

namespace Board

/-! ### The rules -/

/-- Some number of steps in one direction lead from `s` to `t`, over empty squares. -/
def Slides (b : Board) (direction : Int → Int → Prop) (s t : Square) : Prop :=
  ∃ (m n : Int) (k : Nat), direction m n ∧ 0 < k ∧ s.Apart t (k * m) (k * n) ∧
    ∀ j : Nat, 0 < j → j < k → ∀ u, s.Apart u (j * m) (j * n) → b.manAt u = none

/-- A pawn steps forward onto an empty square, or from its start two squares forward over and onto
empty squares, or captures one square diagonally forward. -/
def PawnGoes (b : Board) (c : Color) (s t : Square) : Prop :=
  s.Apart t c.forward.toInt 0 ∧ b.manAt t = none ∨
  (s.row = c.pawnRow ∧ s.Apart t (2 * c.forward.toInt) 0 ∧
    (∀ u, s.Apart u c.forward.toInt 0 → b.manAt u = none) ∧ b.manAt t = none) ∨
  (∃ n : Int, n.natAbs = 1 ∧ s.Apart t c.forward.toInt n) ∧
    ∃ m, b.manAt t = some m ∧ m.color ≠ c

/-- King and rook of a wing are untouched at home with nothing between them, and the opponent attacks
no square of the king's way. -/
def MayCastle (b : Board) (c : Color) (w : Wing) : Prop :=
  b.manAt (c.rookHome w) = some ⟨.rook, c⟩ ∧
  b.visits c.kingHome = 0 ∧ b.visits (c.rookHome w) = 0 ∧
  (∀ s ∈ c.pathway w, b.manAt s = none) ∧
  ∀ s ∈ [c.kingHome, c.crosses w, c.castlesTo w], b.isAttacked s c.opponent = false

/-- A king goes one step in any direction, or castles. -/
def KingGoes (b : Board) (c : Color) (s t : Square) : Prop :=
  (∃ m n, Square.IsStep m n ∧ s.Apart t m n) ∨
  s = c.kingHome ∧ ∃ w, t = c.castlesTo w ∧ b.MayCastle c w

/-- The rules let a piece go to a square; what it finds there matters to pawns only. -/
def Goes (b : Board) (p : Piece) (t : Square) : Prop :=
  match p.kind with
  | .rook => b.Slides Square.IsRookStep p.square t
  | .bishop => b.Slides Square.IsBishopStep p.square t
  | .queen => b.Slides Square.IsRookStep p.square t ∨ b.Slides Square.IsBishopStep p.square t
  | .knight => ∃ m n, Square.IsLeap m n ∧ p.square.Apart t m n
  | .pawn => b.PawnGoes p.color p.square t
  | .king => b.KingGoes p.color p.square t

variable {b : Board} {p : Piece} {s t u : Square} {c : Color} {m n : Int} {k : Nat}

/-! ### Lines -/

theorem isBlocked_iff (hd : Square.IsStep m n) (hs : s.OnBoard) (ht : t.OnBoard) (hk : 0 < k)
    (hst : s.Apart t (k * m) (k * n)) :
    b.isBlocked s t = false ↔
      ∀ j : Nat, 0 < j → j < k → ∀ u, s.Apart u (j * m) (j * n) → b.manAt u = none := by
  unfold isBlocked
  rw [List.any_eq_false]
  simp only [Square.mem_between hd hs ht hk hst, Bool.not_eq_true, Option.isSome_eq_false_iff,
    Option.isNone_iff_eq_none]
  constructor
  · intro h j hj hjk u hu
    exact h u ⟨j, hj, hjk, hu⟩
  · rintro h u ⟨j, hj, hjk, hu⟩
    exact h j hj hjk u hu

/-- Sliding is being on a line in the direction with nothing in between. -/
theorem slides_iff {direction : Int → Int → Prop} (hd : ∀ m n, direction m n → Square.IsStep m n)
    (hs : s.OnBoard) (ht : t.OnBoard) :
    b.Slides direction s t ↔
      (∃ (m n : Int) (k : Nat), direction m n ∧ 0 < k ∧ s.Apart t (k * m) (k * n)) ∧
        b.isBlocked s t = false := by
  constructor
  · rintro ⟨m, n, k, hmn, hk, hst, hfree⟩
    exact ⟨⟨m, n, k, hmn, hk, hst⟩, (isBlocked_iff (hd m n hmn) hs ht hk hst).mpr hfree⟩
  · rintro ⟨⟨m, n, k, hmn, hk, hst⟩, hfree⟩
    exact ⟨m, n, k, hmn, hk, hst, (isBlocked_iff (hd m n hmn) hs ht hk hst).mp hfree⟩

theorem reaches_iff (hs : p.square.OnBoard) (ht : t.OnBoard) (hne : p.square ≠ t) :
    b.reaches p t = true ↔ (p.kind ≠ .pawn ∧ p.kind ≠ .king) ∧ b.Goes p t := by
  have hrook := slides_iff (b := b) (fun _ _ => Square.IsRookStep.isStep) hs ht
  have hbishop := slides_iff (b := b) (fun _ _ => Square.IsBishopStep.isStep) hs ht
  rw [← Square.isStraight_iff hne] at hrook
  rw [← Square.isDiagonal_iff hs ht hne] at hbishop
  unfold reaches Goes
  cases p.kind with
  | knight => simpa using Square.isKnightJump_iff ht
  | rook => simp [hrook]
  | bishop => simp [hbishop]
  | queen =>
      simp only [hrook, hbishop, Bool.and_eq_true, Bool.or_eq_true, Bool.not_eq_true', ne_eq,
        reduceCtorEq, not_false_eq_true, and_self, true_and, or_and_right]
  | pawn => simp
  | king => simp

/-! ### Pawns -/

/-- The square that a pawn steps over from its start is there to be looked at. -/
theorem any_offset_forward (hs : s.OnBoard) (hrow : s.row = c.pawnRow) (f : Square → Bool) :
    (s.offset c.forward 0).any f = true ↔ ∀ u, s.Apart u c.forward.toInt 0 → f u = true := by
  obtain ⟨v, hv, hsv⟩ : ∃ v, v.OnBoard ∧ s.Apart v c.forward.toInt 0 := by
    have := Square.toNat_lt hs
    refine Square.exists_apart ?_ (by omega)
    rw [hrow]
    cases c <;> decide
  rw [Square.offset_eq_some_iff.mpr ⟨hv, hsv⟩, Option.any_some]
  exact ⟨fun h u hu => hsv.unique hu ▸ h, fun h => h v hsv⟩

theorem admitsPawn_iff (hs : p.square.OnBoard) (ht : t.OnBoard) :
    b.admitsPawn p t = true ↔ b.PawnGoes p.color p.square t := by
  set f := p.color.forward.toInt with hf
  have hforward : f = -1 ∨ f = 1 := by
    rw [hf]
    cases p.color
    · exact .inl rfl
    · exact .inr rfl
  have htwice : (2 * p.color.forward).toInt = 2 * f := by
    rw [hf]
    cases p.color <;> rfl
  have hsame : (0 : Int8).toInt = (0 : Nat) := rfl
  have hnext : (1 : Int8).toInt = (1 : Nat) := rfl
  have hstep := Square.deltas_iff hs ht hsame p.color.forward
  have hdouble := Square.deltas_iff hs ht hsame (2 * p.color.forward)
  have hcapture := Square.deltas_iff hs ht hnext p.color.forward
  simp only [htwice, ← hf, Int.natAbs_eq_zero, exists_eq_left] at hstep hdouble hcapture
  -- one row forward, two rows forward and one file aside exclude each other
  have happart : p.square.Apart t f 0 → ¬ p.square.Apart t (2 * f) 0 := by
    rintro ⟨h1, -⟩ ⟨h2, -⟩
    omega
  have haside : ∀ d, p.square.Apart t d 0 →
      ¬ ∃ n : Int, n.natAbs = 1 ∧ p.square.Apart t f n := by
    rintro d ⟨-, h1⟩ ⟨n, hn, -, h2⟩
    omega
  unfold admitsPawn PawnGoes
  simp only [hstep, hdouble, ← hf]
  split_ifs with h1 h2 h3
  · simp only [h1, happart h1, haside f h1, Option.isNone_iff_eq_none, true_and, false_and,
      and_false, or_false]
  · rw [Bool.and_eq_true, Bool.and_eq_true, decide_eq_true_iff]
    simp only [h1, h2, haside _ h2, false_and, or_false, false_or, true_and,
      Option.isNone_iff_eq_none]
    constructor
    · rintro ⟨⟨hrow, hfree⟩, hmiddle⟩
      rw [any_offset_forward hs hrow] at hmiddle
      exact ⟨hrow, fun u hu => Option.isNone_iff_eq_none.mp (hmiddle u hu), hfree⟩
    · rintro ⟨hrow, hmiddle, hfree⟩
      refine ⟨⟨hrow, hfree⟩, ?_⟩
      rw [any_offset_forward hs hrow]
      exact fun u hu => Option.isNone_iff_eq_none.mpr (hmiddle u hu)
  · simp only [h1, h2, hcapture.mp h3, Option.any_eq_true, decide_eq_true_eq, true_and, false_and,
      and_false, false_or]
  · simp only [h1, h2, mt hcapture.mpr h3, false_and, and_false, or_self]

/-! ### Castling -/

theorem mayCastle_iff {w : Wing} :
    (b.castling? c.king (c.castlesTo w)).isSome = true ↔ b.MayCastle c w := by
  rw [castling?_king_iff, castlingReady_iff]
  unfold MayCastle
  rw [← isBlocked_kingHome]
  simp only [Color.rookLeg, and_assoc]

theorem castling?_isSome_iff (hk : p.kind = .king) :
    (b.castling? p t).isSome = true ↔
      p.square = p.color.kingHome ∧ ∃ w, t = p.color.castlesTo w ∧ b.MayCastle p.color w := by
  constructor
  · intro h
    obtain ⟨leg, hleg⟩ := Option.isSome_iff_exists.mp h
    obtain ⟨hp, w, ht, -⟩ := exists_wing_of_castling? hleg
    rw [hp, ht] at h
    exact ⟨congrArg Piece.square hp, w, ht, mayCastle_iff.mp h⟩
  · rintro ⟨hhome, w, rfl, hw⟩
    have hp : p = p.color.king := by
      obtain ⟨k, d, q⟩ := p
      simp only at hk hhome
      rw [hk, hhome]
      rfl
    have h := mayCastle_iff.mpr hw
    rw [← hp] at h
    exact h

/-! ### One move -/

/-- What the kinds ask of a move, next to the rules. -/
theorem gets_iff_goes (hs : p.square.OnBoard) (ht : t.OnBoard) (hne : p.square ≠ t) :
    (match p.kind with
      | .pawn => b.admitsPawn p t
      | .king => Square.isKingStep p.square t || (b.castling? p t).isSome
      | _ => b.reaches p t) = true ↔ b.Goes p t := by
  have hreach := reaches_iff (b := b) hs ht hne
  have hpawn := admitsPawn_iff (b := b) hs ht
  unfold Goes at hreach ⊢
  cases hk : p.kind with
  | pawn => exact hpawn
  | king =>
      rw [Bool.or_eq_true, Square.isKingStep_iff_apart hs ht hne, castling?_isSome_iff hk]
      rfl
  | rook => simpa [hk] using hreach
  | knight => simpa [hk] using hreach
  | bishop => simpa [hk] using hreach
  | queen => simpa [hk] using hreach

theorem admits_iff : b.admits p t = true ↔
    b.pieceAt p.square = some p ∧ t.OnBoard ∧ (∀ m, b.manAt t = some m → m.color ≠ p.color) ∧
      b.Goes p t := by
  constructor
  · intro h
    obtain ⟨ht, hs, hman, hfree, hne⟩ := admits_spec h
    refine ⟨pieceAt_eq_some_iff.mpr ⟨rfl, hman⟩, ht, hfree, (gets_iff_goes hs ht hne).mp ?_⟩
    exact (Bool.and_eq_true_iff.mp h).2
  · rintro ⟨hp, ht, hfree, hgoes⟩
    have hman := (pieceAt_eq_some_iff.mp hp).2
    have hne : p.square ≠ t := by
      rintro rfl
      exact hfree p.man hman rfl
    have hown : ((b.manAt t).any fun m => decide (m.color = p.color)) = false := by
      rw [Option.any_eq_false]
      exact fun m hm => by simpa using hfree m hm
    unfold admits
    rw [decide_eq_true ht, decide_eq_true hp, hown, Bool.not_false, Bool.and_true, Bool.and_true,
      Bool.true_and]
    exact (gets_iff_goes (onBoard_of_manAt hman) ht hne).mpr hgoes

/-! ### Walking a line -/

/-- The walk along a line, from square to square, towards `t`: it ends before the edge of the board,
on `t`, or on a man that stands in the way, and only then says that one does. -/
inductive Walk (b : Board) (t : Square) (dr dc : Int8) : Option Square → Bool → Prop
  | edge : Walk b t dr dc none false
  | target : Walk b t dr dc (some t) false
  | man {u : Square} (hut : u ≠ t) (hu : b.manAt u ≠ none) : Walk b t dr dc (some u) true
  | step {u : Square} {blocked : Bool} (hut : u ≠ t) (hu : b.manAt u = none)
      (rest : Walk b t dr dc (u.offset dr dc) blocked) : Walk b t dr dc (some u) blocked

variable {dr dc : Int8} {blocked blocked' : Bool}

/-- A walk says one thing. -/
theorem Walk.unique {next : Option Square} (h : b.Walk t dr dc next blocked)
    (h' : b.Walk t dr dc next blocked') : blocked = blocked' := by
  induction h with
  | edge =>
      cases h'
      rfl
  | target =>
      cases h' with
      | target => rfl
      | man hut => exact absurd rfl hut
      | step hut => exact absurd rfl hut
  | man hut hu =>
      cases h' with
      | target => exact absurd rfl hut
      | man => rfl
      | step _ hfree => exact absurd hfree hu
  | step hut hu _ ih =>
      cases h' with
      | target => exact absurd rfl hut
      | man _ hman => exact absurd hu hman
      | step _ _ rest => exact ih rest

/-- A walk that ends within a number of steps ends. -/
theorem walk_of_blockedFrom {n : Nat} {next : Option Square}
    (h : b.arrays.blockedFrom t dr dc n next = .ok blocked) : b.Walk t dr dc next blocked := by
  induction n generalizing next with
  | zero =>
      cases next with
      | none =>
          cases h
          exact .edge
      | some u => cases h
  | succ n ih =>
      cases next with
      | none =>
          cases h
          exact .edge
      | some u =>
          rw [Arrays.blockedFrom] at h
          by_cases hut : u = t
          · rw [if_pos hut] at h
            cases h
            rw [hut]
            exact .target
          · rw [if_neg hut, pieceAt_arrays, Checked.ok_bind, pieceAt, Option.isSome_map] at h
            cases hu : b.manAt u with
            | some m =>
                rw [hu, Option.isSome_some, if_pos rfl] at h
                cases h
                exact .man hut (by rw [hu]; exact Option.some_ne_none m)
            | none =>
                rw [hu, Option.isSome_none, if_neg Bool.false_ne_true, Checked.offset_ok,
                  Checked.ok_bind] at h
                exact .step hut hu (ih h)

/-- The walk from `s` towards `t`, in the direction of the differences between the two, says whether a
man stands between. -/
def WalksTo (b : Board) (s t : Square) (blocked : Bool) : Prop :=
  let dr := Square.step (Square.rowDelta s t)
  let dc := Square.step (Square.colDelta s t)
  b.Walk t dr dc (s.offset dr dc) blocked

theorem walksTo_iff (hs : s.OnBoard) (ht : t.OnBoard) :
    b.WalksTo s t blocked ↔ blocked = b.isBlocked s t := by
  have hwalk := isBlocked_arrays b hs ht
  simp only [Arrays.isBlocked, Checked.rowDelta_ok hs ht, Checked.colDelta_ok hs ht,
    Checked.offset_ok, Checked.ok_bind] at hwalk
  have hends : b.WalksTo s t (b.isBlocked s t) := walk_of_blockedFrom hwalk
  constructor
  · intro h
    exact h.unique hends
  · rintro rfl
    exact hends

/-- **The moves that are admitted are those of the rules.**  On every board, whatever stands on it and
however often its squares have been visited, a piece may move to a square exactly if it stands where
it says, the square lies on the board and holds no man of its side, and the rules let the piece go
there: a rook, bishop or queen by steps in one of its directions over empty squares, a knight by a
jump, a pawn by a step or a double step onto empty squares or by a capture, and a king by a step or
by castling.  The walk along a line that decides whether a man stands in the way ends for every two
squares of the board, also from a square to itself, and with one answer. -/
theorem admits_iff_goes (b : Board) :
    (∀ p t, b.admits p t = true ↔
      b.pieceAt p.square = some p ∧ t.OnBoard ∧ (∀ m, b.manAt t = some m → m.color ≠ p.color) ∧
        b.Goes p t) ∧
      ∀ s t, s.OnBoard → t.OnBoard → ∀ blocked,
        b.WalksTo s t blocked ↔ blocked = b.isBlocked s t := by
  refine ⟨fun p t => admits_iff, fun s t hs ht blocked => ?_⟩
  exact walksTo_iff hs ht

/-- A king castles over empty squares, its rook slides up the board, and the walks of the rook end:
before the man that stands in its way and, to the square it stands on, at once. -/
theorem goes_of_kingside :
    let king := Color.white.king
    let rook : Piece := ⟨.rook, .white, ⟨7, 7⟩⟩
    let b := ofPieces [king, rook, ⟨.king, .black, ⟨0, 4⟩⟩, ⟨.pawn, .black, ⟨1, 7⟩⟩]
    (b.Goes king ⟨7, 6⟩ ∧ b.Goes rook ⟨1, 7⟩ ∧ ¬ b.Goes rook ⟨0, 7⟩) ∧
      (Square.OnBoard ⟨7, 7⟩ ∧ Square.OnBoard ⟨0, 7⟩) ∧
        b.WalksTo ⟨7, 7⟩ ⟨0, 7⟩ true ∧ b.WalksTo ⟨7, 7⟩ ⟨7, 7⟩ false := by
  intro king rook b
  have hking : b.admits king ⟨7, 6⟩ = true := by decide +kernel
  have hrook : b.admits rook ⟨1, 7⟩ = true := by decide +kernel
  have hstands : b.pieceAt rook.square = some rook := by decide +kernel
  have hempty : b.manAt ⟨0, 7⟩ = none := by decide +kernel
  have hover : b.admits rook ⟨0, 7⟩ = false := by decide +kernel
  have hblocked : true = b.isBlocked ⟨7, 7⟩ ⟨0, 7⟩ ∧ false = b.isBlocked ⟨7, 7⟩ ⟨7, 7⟩ := by
    decide +kernel
  have hcorner : Square.OnBoard ⟨7, 7⟩ := by decide
  have htop : Square.OnBoard ⟨0, 7⟩ := by decide
  obtain ⟨hadmits, hwalks⟩ := admits_iff_goes b
  refine ⟨⟨?_, ?_, ?_⟩, ⟨hcorner, htop⟩, ?_, ?_⟩
  · exact ((hadmits king ⟨7, 6⟩).mp hking).2.2.2
  · exact ((hadmits rook ⟨1, 7⟩).mp hrook).2.2.2
  · intro hgoes
    have := (hadmits rook ⟨0, 7⟩).mpr ⟨hstands, htop, by simp [hempty], hgoes⟩
    rw [hover] at this
    cases this
  · exact (hwalks _ _ hcorner htop true).mpr hblocked.1
  · exact (hwalks _ _ hcorner hcorner false).mpr hblocked.2

end Board
end LiveChess
