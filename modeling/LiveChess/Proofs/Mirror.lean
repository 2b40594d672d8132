import LiveChess.Proofs.KingSafety
import LiveChess.Proofs.Arrays

/-! # Both sides play the same game

Everything that depends on the side is a number read off it, so the rules could treat one side
differently by one wrong number.  They do not.  `Board.mirror` turns a board upside down and swaps
the sides; each definition of the rules comes, on the mirrored board and for mirrored arguments, to
the mirror of what it comes to on the board, from the differences of rows (`rowDelta_mirror`) up to
what is played (`play?_mirror`).  `rules_mirror` puts them together, and since the starting position
is its own mirror, every line from there has its mirror too (`playAll?_start_mirror`). -/

namespace LiveChess

/-! ### Mirroring squares -/

namespace Square

variable {s t : Square} {d dr dc : Int8} {m n : Int}

/-- The square of the same column, as far from the other edge. -/
def mirror (s : Square) : Square := ⟨7 - s.row, s.col⟩

@[simp] theorem mirror_mirror (s : Square) : s.mirror.mirror = s := by
  obtain ⟨r, c⟩ := s
  have hrow : 7 - (7 - r) = r := by grind
  simp only [mirror, hrow]

theorem mirror_involutive : Function.Involutive mirror := mirror_mirror

theorem mirror_inj : s.mirror = t.mirror ↔ s = t := mirror_involutive.injective.eq_iff

/-- Rows are bytes, and one past the edge wraps; it never comes back onto the board. -/
theorem row_mirror_lt : s.mirror.row < 8 ↔ s.row < 8 := by
  have := s.row.toNat_lt
  simp only [mirror, UInt8.lt_iff_toNat_lt, UInt8.toNat_sub]
  show (2 ^ 8 - s.row.toNat + 7) % 2 ^ 8 < 8 ↔ s.row.toNat < 8
  omega

theorem onBoard_mirror : s.mirror.OnBoard ↔ s.OnBoard := and_congr_left fun _ => row_mirror_lt

theorem eq_mirror_iff : s = t.mirror ∧ t.mirror.OnBoard ↔ s.mirror = t ∧ t.OnBoard :=
  and_congr mirror_involutive.eq_iff.symm onBoard_mirror

theorem toNat_row_mirror (h : s.row < 8) : s.mirror.row.toNat = 7 - s.row.toNat := by
  have hrow : s.row.toNat < 8 := h
  have hle : s.row ≤ 7 := by
    rw [UInt8.le_iff_toNat_le]
    show s.row.toNat ≤ 7
    omega
  exact UInt8.toNat_sub_of_le _ _ hle

theorem apart_mirror (hs : s.row < 8) (ht : t.row < 8) :
    s.mirror.Apart t.mirror (-m) n ↔ s.Apart t m n := by
  have h1 : s.row.toNat < 8 := hs
  have h2 : t.row.toNat < 8 := ht
  unfold Apart
  rw [toNat_row_mirror hs, toNat_row_mirror ht]
  refine and_congr ?_ Iff.rfl
  omega

/-! ### Mirroring directions -/

theorem rowDelta_mirror (s t : Square) : rowDelta s.mirror t.mirror = -rowDelta s t := by
  simp only [rowDelta, mirror, UInt8.toInt8_sub]
  grind

theorem colDelta_mirror (s t : Square) : colDelta s.mirror t.mirror = colDelta s t := rfl

theorem toInt_neg (h : d ≠ -128) : (-d).toInt = -d.toInt := by
  have h1 : -128 ≤ d.toInt := d.le_toInt
  have h2 : d.toInt ≤ 127 := d.toInt_le
  have h3 : d.toInt ≠ -128 := fun e => h (Int8.toInt_inj.mp e)
  rw [Int8.toInt_neg, Int.bmod_eq_of_le] <;> omega

theorem abs_neg (d : Int8) : (-d).abs = d.abs := by
  by_cases h : d = -128
  · rw [h]
    rfl
  · have h1 : -128 ≤ d.toInt := d.le_toInt
    have h2 : d.toInt ≤ 127 := d.toInt_le
    have h3 : d.toInt ≠ -128 := fun e => h (Int8.toInt_inj.mp e)
    have hneg := toInt_neg h
    rw [← Int8.toInt_inj, toInt_abs (by omega), toInt_abs (by omega), hneg, Int.natAbs_neg]

theorem step_ne (d : Int8) : step d ≠ -128 := by
  unfold step
  split_ifs <;> decide

theorem step_neg (h : d ≠ -128) : step (-d) = -step d := by
  rw [← Int8.toInt_inj, toInt_step, toInt_neg h, toInt_neg (step_ne d), toInt_step, Int.sign_neg]

/-- Rows of the board are never -128 apart, the one difference that a byte cannot negate. -/
theorem rowDelta_ne (hs : s.row < 8) (ht : t.row < 8) : rowDelta s t ≠ -128 := by
  have h1 : s.row.toNat < 8 := hs
  have h2 : t.row.toNat < 8 := ht
  intro h
  have hr : (rowDelta s t).toInt = -128 := congrArg Int8.toInt h
  rw [rowDelta, Int8.toInt_sub, toInt_toInt8 hs, toInt_toInt8 ht, Int.bmod_eq_of_le] at hr <;> omega

theorem isStraight_mirror (s t : Square) : isStraight s.mirror t.mirror = isStraight s t := by
  have hrow : s.mirror.row = t.mirror.row ↔ s.row = t.row := by
    unfold mirror
    grind
  unfold isStraight
  rw [decide_eq_decide.mpr hrow]
  rfl

theorem isDiagonal_mirror (s t : Square) : isDiagonal s.mirror t.mirror = isDiagonal s t := by
  unfold isDiagonal
  rw [rowDelta_mirror, colDelta_mirror, abs_neg]

theorem isKingStep_mirror (s t : Square) : isKingStep s.mirror t.mirror = isKingStep s t := by
  unfold isKingStep
  rw [rowDelta_mirror, colDelta_mirror, abs_neg]

/-! ### Mirroring walks -/

theorem offset_mirror (hs : s.row < 8) (hdr : dr ≠ -128) :
    s.mirror.offset (-dr) dc = (s.offset dr dc).map mirror := by
  refine Option.ext fun u => ?_
  rw [offset_eq_some_iff, toInt_neg hdr, Option.map_eq_some_iff]
  constructor
  · rintro ⟨hu, hsu⟩
    refine ⟨u.mirror, offset_eq_some_iff.mpr ⟨onBoard_mirror.mpr hu, ?_⟩, mirror_mirror u⟩
    rw [← mirror_mirror u] at hsu
    exact (apart_mirror hs (row_mirror_lt.mpr hu.1)).mp hsu
  · rintro ⟨v, hv, rfl⟩
    obtain ⟨hv, hsv⟩ := offset_eq_some_iff.mp hv
    exact ⟨onBoard_mirror.mpr hv, (apart_mirror hs hv.1).mpr hsv⟩

theorem ray_mirror (hs : s.row < 8) (hdr : dr ≠ -128) (k : Nat) :
    ray s.mirror (-dr) dc k = (ray s dr dc k).map mirror := by
  induction k generalizing s with
  | zero => rfl
  | succ k ih =>
      rw [ray, ray, offset_mirror hs hdr]
      cases hu : s.offset dr dc with
      | none => rfl
      | some u =>
          have hrow : u.row < 8 := (offset_eq_some_iff.mp hu).1.1
          simp only [Option.map_some, List.map_cons, ih hrow]

theorem between_mirror (hs : s.row < 8) (ht : t.row < 8) :
    between s.mirror t.mirror = (between s t).map mirror := by
  unfold between
  rw [rowDelta_mirror, colDelta_mirror, step_neg (rowDelta_ne hs ht), ray_mirror hs (step_ne _),
    List.takeWhile_map]
  congr 2
  funext u
  simp [mirror_inj]

theorem isKnightJump_mirror (hs : s.row < 8) :
    isKnightJump s.mirror t.mirror = isKnightJump s t := by
  have hjumps : knightJumps.all
      (fun d => decide ((-d.1, d.2) ∈ knightJumps ∧ d.1 ≠ -128)) = true := by decide
  have hmirrored : ∀ {s t : Square}, s.row < 8 → isKnightJump s t = true →
      isKnightJump s.mirror t.mirror = true := by
    intro s t hs h
    obtain ⟨d, hd, hst⟩ := List.any_eq_true.mp h
    obtain ⟨hd', hne⟩ := of_decide_eq_true (List.all_eq_true.mp hjumps d hd)
    refine List.any_eq_true.mpr ⟨_, hd', ?_⟩
    rw [decide_eq_true_iff] at hst ⊢
    rw [offset_mirror hs hne, hst, Option.map_some]
  rw [Bool.eq_iff_iff]
  refine ⟨fun h => ?_, hmirrored hs⟩
  have := hmirrored (row_mirror_lt.mpr hs) h
  rwa [mirror_mirror, mirror_mirror] at this

end Square

/-! ### Swapping the sides -/

namespace Color

theorem opponent_involutive : Function.Involutive opponent := opponent_opponent

theorem opponent_inj {c d : Color} : c.opponent = d.opponent ↔ c = d :=
  opponent_involutive.injective.eq_iff

theorem forward_opponent (c : Color) : c.opponent.forward = -c.forward := by
  cases c <;> rfl

theorem homeRow_opponent (c : Color) : c.opponent.homeRow = 7 - c.homeRow := by
  cases c <;> rfl

theorem pawnRow_opponent (c : Color) : c.opponent.pawnRow = 7 - c.pawnRow := by
  cases c <;> rfl

theorem kingHome_opponent (c : Color) : c.opponent.kingHome = c.kingHome.mirror := by
  cases c <;> rfl

end Color

/-- The man of the other side. -/
def Man.mirror (m : Man) : Man := ⟨m.kind, m.color.opponent⟩

@[simp] theorem Man.mirror_mirror (m : Man) : m.mirror.mirror = m := by
  simp [mirror]

/-- The piece of the other side on the mirrored square. -/
def Piece.mirror (p : Piece) : Piece := ⟨p.kind, p.color.opponent, p.square.mirror⟩

@[simp] theorem Piece.mirror_mirror (p : Piece) : p.mirror.mirror = p := by
  simp [mirror]

theorem Piece.mirror_involutive : Function.Involutive mirror := mirror_mirror

@[simp] theorem Piece.kind_mirror (p : Piece) : p.mirror.kind = p.kind := rfl

@[simp] theorem Piece.color_mirror (p : Piece) : p.mirror.color = p.color.opponent := rfl

@[simp] theorem Piece.square_mirror (p : Piece) : p.mirror.square = p.square.mirror := rfl

@[simp] theorem Piece.man_mirror (p : Piece) : p.mirror.man = p.man.mirror := rfl

theorem Piece.forward_mirror {p : Piece} {t : Square} :
    Square.rowDelta p.mirror.square t.mirror = p.mirror.color.forward ↔
      Square.rowDelta p.square t = p.color.forward := by
  rw [square_mirror, Square.rowDelta_mirror, color_mirror, Color.forward_opponent]
  grind

theorem Piece.double_forward_mirror {p : Piece} {t : Square} :
    Square.rowDelta p.mirror.square t.mirror = 2 * p.mirror.color.forward ↔
      Square.rowDelta p.square t = 2 * p.color.forward := by
  rw [square_mirror, Square.rowDelta_mirror, color_mirror, Color.forward_opponent]
  grind

/-- The way of a rook on the mirrored row. -/
def RookLeg.mirror (leg : RookLeg) : RookLeg := ⟨leg.source.mirror, leg.target.mirror⟩

/-- The ply of the other side on the mirrored board. -/
def Ply.mirror (m : Ply) : Ply := ⟨m.piece.mirror, m.target.mirror⟩

/-- What a played move did to the mirrored board. -/
def Placement.mirror (r : Placement) : Placement where
  piece := r.piece.mirror
  source := r.source.mirror
  target := r.target.mirror
  captured := r.captured.map Piece.mirror
  rookLeg := r.rookLeg.map RookLeg.mirror

theorem RookLeg.ofKing?_mirror (row col : UInt8) :
    ofKing? (7 - row) col = (ofKing? row col).map mirror := by
  unfold ofKing?
  split_ifs <;> rfl

namespace Board

variable {b : Board} {p : Piece} {s t u : Square} {c : Color} {leg : RookLeg}

/-- The board upside down, each man changing sides; visits go with their squares. -/
def mirror (b : Board) : Board :=
  tabulate (fun s => (b.manAt s.mirror).map Man.mirror) fun s => b.visits s.mirror

theorem manAt_mirror (b : Board) (s : Square) :
    b.mirror.manAt s = (b.manAt s.mirror).map Man.mirror := by
  rw [mirror, manAt_tabulate]
  split_ifs with hs
  · rfl
  · rw [manAt_of_not_onBoard (mt Square.onBoard_mirror.mp hs)]
    rfl

theorem visits_mirror (b : Board) (s : Square) : b.mirror.visits s = b.visits s.mirror := by
  rw [mirror, visits_tabulate]
  split_ifs with hs
  · rfl
  · rw [visits, dif_neg (mt Square.onBoard_mirror.mp hs)]

theorem manAt_mirror_eq_some_iff {m : Man} :
    b.mirror.manAt s.mirror = some m.mirror ↔ b.manAt s = some m := by
  rw [manAt_mirror, Square.mirror_mirror, Option.map_eq_some_iff]
  constructor
  · rintro ⟨m', h, e⟩
    rw [h, ← Man.mirror_mirror m', e, Man.mirror_mirror]
  · exact fun h => ⟨m, h, rfl⟩

theorem any_manAt_mirror {f g : Man → Bool} (h : ∀ m, f m.mirror = g m) :
    (b.mirror.manAt s.mirror).any f = (b.manAt s).any g := by
  rw [manAt_mirror, Square.mirror_mirror, Option.any_map]
  exact congrArg (Option.any · _) (funext h)

theorem pieceAt_mirror (b : Board) (s : Square) :
    b.mirror.pieceAt s.mirror = (b.pieceAt s).map Piece.mirror := by
  unfold pieceAt
  rw [manAt_mirror, Square.mirror_mirror]
  cases b.manAt s <;> rfl

theorem pieceAt_mirror_eq_some_iff :
    b.mirror.pieceAt s.mirror = some p.mirror ↔ b.pieceAt s = some p := by
  rw [pieceAt_mirror, ← Option.map_some]
  exact (Option.map_injective Piece.mirror_involutive.injective).eq_iff

/-! ### Attacks -/

theorem isBlocked_mirror (hs : s.row < 8) (ht : t.row < 8) :
    b.mirror.isBlocked s.mirror t.mirror = b.isBlocked s t := by
  unfold isBlocked
  rw [Square.between_mirror hs ht, List.any_map]
  refine congrArg (List.any _) (funext fun u => ?_)
  rw [Function.comp_apply, manAt_mirror, Square.mirror_mirror, Option.isSome_map]

theorem reaches_mirror (hs : p.square.row < 8) (ht : t.row < 8) :
    b.mirror.reaches p.mirror t.mirror = b.reaches p t := by
  have hjump := Square.isKnightJump_mirror (t := t) hs
  have hblocked := isBlocked_mirror (b := b) hs ht
  unfold reaches
  rw [Piece.kind_mirror, Piece.square_mirror, hjump, hblocked, Square.isStraight_mirror,
    Square.isDiagonal_mirror]

theorem attacks_mirror (hs : p.square.row < 8) (ht : t.row < 8) :
    b.mirror.attacks p.mirror t.mirror = b.attacks p t := by
  have hne : p.mirror.square ≠ t.mirror ↔ p.square ≠ t := Square.mirror_inj.not
  unfold attacks
  rw [reaches_mirror hs ht, decide_eq_decide.mpr hne, decide_eq_decide.mpr Piece.forward_mirror,
    Piece.kind_mirror, Piece.square_mirror, Square.colDelta_mirror, Square.isKingStep_mirror]

theorem isAttacked_mirror (ht : t.row < 8) :
    b.mirror.isAttacked t.mirror c.opponent = b.isAttacked t c := by
  rw [Bool.eq_iff_iff, isAttacked_iff, isAttacked_iff, Piece.mirror_involutive.surjective.exists]
  refine exists_congr fun p => and_congr Color.opponent_inj ?_
  rw [Piece.square_mirror, Piece.man_mirror, manAt_mirror_eq_some_iff]
  refine and_congr_right fun hp => ?_
  rw [attacks_mirror (onBoard_of_manAt hp).1 ht]

theorem OneKing.mirror (hone : b.OneKing c) : b.mirror.OneKing c.opponent := by
  intro s t hs ht
  rw [← s.mirror_mirror] at hs
  rw [← t.mirror_mirror] at ht
  exact Square.mirror_inj.mp
    (hone _ _ (manAt_mirror_eq_some_iff.mp hs) (manAt_mirror_eq_some_iff.mp ht))

theorem findKing_mirror (hone : b.OneKing c) :
    b.mirror.findKing c.opponent = (b.findKing c).map Square.mirror := by
  refine Option.ext fun s => ?_
  have hking : b.mirror.manAt s = some ⟨.king, c.opponent⟩ ↔
      b.manAt s.mirror = some ⟨.king, c⟩ := by
    rw [← manAt_mirror_eq_some_iff (b := b), s.mirror_mirror]
    rfl
  rw [findKing_eq_some_iff hone.mirror, hking, ← findKing_eq_some_iff hone, Option.map_eq_some_iff]
  exact ⟨fun h => ⟨_, h, s.mirror_mirror⟩, fun ⟨u, h, e⟩ => by rwa [← e, u.mirror_mirror]⟩

theorem inCheck_mirror (hone : b.OneKing c) : b.mirror.inCheck c.opponent = b.inCheck c := by
  unfold inCheck
  rw [findKing_mirror hone]
  cases hf : b.findKing c with
  | none => rfl
  | some s => exact isAttacked_mirror (onBoard_of_manAt (manAt_of_findKing hf)).1

/-! ### Castling -/

theorem castlingReady_mirror (hleg : leg.source.row < 8) :
    b.mirror.castlingReady c.opponent leg.mirror = b.castlingReady c leg := by
  have hrook : b.mirror.manAt leg.source.mirror = some ⟨.rook, c.opponent⟩ ↔
      b.manAt leg.source = some ⟨.rook, c⟩ := manAt_mirror_eq_some_iff (m := ⟨.rook, c⟩)
  rw [Bool.eq_iff_iff, castlingReady_iff, castlingReady_iff, Color.kingHome_opponent]
  simp only [RookLeg.mirror, hrook, visits_mirror, Square.mirror_mirror,
    isBlocked_mirror c.onBoard_kingHome.1 hleg]

theorem castling?_mirror (ht : t.row < 8) :
    b.mirror.castling? p.mirror t.mirror = (b.castling? p t).map RookLeg.mirror := by
  have hhome : p.mirror.square = p.mirror.color.kingHome ↔ p.square = p.color.kingHome := by
    rw [Piece.color_mirror, Color.kingHome_opponent]
    exact Square.mirror_inj
  have hrow : t.mirror.row = p.mirror.color.homeRow ↔ t.row = p.color.homeRow := by
    rw [Piece.color_mirror, Color.homeRow_opponent]
    unfold Square.mirror
    grind
  unfold castling?
  split_ifs with h h' h'
  · obtain ⟨-, hp, -⟩ := h'
    rw [Square.mirror, RookLeg.ofKing?_mirror]
    cases hleg : RookLeg.ofKing? t.row t.col with
    | none => rfl
    | some leg =>
        have hsource : leg.source.row < 8 := by
          rcases RookLeg.ofKing?_eq_some hleg with ⟨-, rfl⟩ | ⟨-, rfl⟩ <;> exact ht
        have htarget : leg.target.row < 8 := (RookLeg.ofKing?_apart hleg).1 ▸ ht
        have hking : p.square.row < 8 := hp ▸ p.color.onBoard_kingHome.1
        have hready := castlingReady_mirror (b := b) (c := p.color) hsource
        have hsafe (s : Square) (hs : s.row < 8) :
            b.mirror.isAttacked s.mirror p.mirror.color.opponent =
              b.isAttacked s p.color.opponent := isAttacked_mirror hs
        rw [Option.map_some, Option.filter_some, Option.filter_some, apply_ite (Option.map _)]
        refine if_congr ?_ rfl rfl
        show (b.mirror.castlingReady p.color.opponent leg.mirror &&
          [p.square.mirror, leg.target.mirror, t.mirror].all _) = true ↔ _
        simp only [List.all_cons, List.all_nil, hready, hsafe _ hking, hsafe _ htarget, hsafe _ ht]
  · exact absurd ⟨h.1, hhome.mp h.2.1, hrow.mp h.2.2⟩ h'
  · exact absurd ⟨h'.1, hhome.mpr h'.2.1, hrow.mpr h'.2.2⟩ h
  · rfl

/-! ### The rule of one move -/

theorem admitsPawn_mirror (hs : p.square.row < 8) :
    b.mirror.admitsPawn p.mirror t.mirror = b.admitsPawn p t := by
  have hfree (u : Square) : (b.mirror.manAt u.mirror).isNone = (b.manAt u).isNone := by
    rw [manAt_mirror, u.mirror_mirror, Option.isNone_map]
  have hrow : p.mirror.square.row = p.mirror.color.pawnRow ↔ p.square.row = p.color.pawnRow := by
    rw [Piece.square_mirror, Piece.color_mirror, Color.pawnRow_opponent]
    unfold Square.mirror
    grind
  have hway : (p.mirror.square.offset p.mirror.color.forward 0).any
      (fun s => (b.mirror.manAt s).isNone) =
        (p.square.offset p.color.forward 0).any fun s => (b.manAt s).isNone := by
    have hforward : p.color.forward ≠ -128 := by cases p.color <;> decide
    rw [Piece.square_mirror, Piece.color_mirror, Color.forward_opponent,
      Square.offset_mirror hs hforward, Option.any_map]
    exact congrArg (Option.any · _) (funext hfree)
  unfold admitsPawn
  refine if_congr (and_congr_right fun _ => Piece.forward_mirror) (hfree t) ?_
  refine if_congr (and_congr_right fun _ => Piece.double_forward_mirror) ?_ ?_
  · rw [decide_eq_decide.mpr hrow, hfree, hway]
  · refine if_congr (and_congr_right fun _ => Piece.forward_mirror)
      (any_manAt_mirror fun m => ?_) rfl
    exact decide_eq_decide.mpr Color.opponent_inj.not

theorem admits_mirror (b : Board) (p : Piece) (t : Square) :
    b.mirror.admits p.mirror t.mirror = b.admits p t := by
  by_cases hrows : p.square.row < 8 ∧ t.row < 8
  · obtain ⟨hs, ht⟩ := hrows
    have hown : (b.mirror.manAt t.mirror).any (fun m => decide (m.color = p.mirror.color)) =
        (b.manAt t).any fun m => decide (m.color = p.color) :=
      any_manAt_mirror fun m => decide_eq_decide.mpr Color.opponent_inj
    have hstands : b.mirror.pieceAt p.mirror.square = some p.mirror ↔
        b.pieceAt p.square = some p := pieceAt_mirror_eq_some_iff
    unfold admits
    rw [decide_eq_decide.mpr Square.onBoard_mirror, decide_eq_decide.mpr hstands, hown,
      Piece.kind_mirror, admitsPawn_mirror hs, reaches_mirror hs ht, castling?_mirror ht,
      Option.isSome_map, Piece.square_mirror, Square.isKingStep_mirror]
  · rw [Bool.eq_iff_iff]
    constructor
    · intro h
      obtain ⟨ht, hs, -⟩ := admits_spec h
      exact absurd ⟨Square.row_mirror_lt.mp hs.1, Square.row_mirror_lt.mp ht.1⟩ hrows
    · intro h
      obtain ⟨ht, hs, -⟩ := admits_spec h
      exact absurd ⟨hs.1, ht.1⟩ hrows

/-! ### Carrying a move out -/

theorem setMan_mirror (b : Board) (s : Square) (m : Option Man) :
    b.mirror.setMan s.mirror (m.map Man.mirror) = (b.setMan s m).mirror := by
  refine ext_manAt (fun u => ?_) fun u => ?_
  · rw [manAt_setMan, manAt_mirror, manAt_mirror, manAt_setMan,
      if_congr Square.eq_mirror_iff rfl rfl, apply_ite (Option.map _)]
  · rw [visits_setMan, visits_mirror, visits_mirror, visits_setMan]

theorem visit_mirror (b : Board) (s : Square) : b.mirror.visit s.mirror = (b.visit s).mirror := by
  refine ext_manAt (fun u => ?_) fun u => ?_
  · rw [manAt_visit, manAt_mirror, manAt_mirror, manAt_visit]
  · rw [visits_visit, visits_mirror, visits_mirror, visits_visit,
      if_congr Square.eq_mirror_iff rfl rfl]

theorem relocate_mirror (b : Board) (s t : Square) :
    b.mirror.relocate s.mirror t.mirror = (b.relocate s t).mirror := by
  unfold relocate
  rw [manAt_mirror, Square.mirror_mirror, ← visit_mirror, ← visit_mirror, ← setMan_mirror,
    ← setMan_mirror]
  rfl

theorem carriedRook_mirror (p : Piece) (t : Square) :
    carriedRook p.mirror t.mirror = (carriedRook p t).map RookLeg.mirror := by
  unfold carriedRook
  rw [apply_ite (Option.map RookLeg.mirror), ← RookLeg.ofKing?_mirror]
  rfl

theorem apply_mirror (b : Board) (p : Piece) (t : Square) :
    b.mirror.apply p.mirror t.mirror = (b.apply p t).mirror := by
  unfold apply
  rw [carriedRook_mirror]
  cases carriedRook p t with
  | none => exact relocate_mirror b p.square t
  | some leg =>
      show (b.mirror.relocate p.square.mirror t.mirror).relocate leg.source.mirror
        leg.target.mirror = _
      rw [relocate_mirror, relocate_mirror]

theorem placement_mirror (b : Board) (p : Piece) (t : Square) :
    b.mirror.placement p.mirror t.mirror = (b.placement p t).mirror := by
  unfold placement Placement.mirror
  rw [carriedRook_mirror, pieceAt_mirror, apply_ite (Option.map _)]
  congr 1
  exact if_congr Square.mirror_inj rfl rfl

theorem leavesInCheck_mirror (hone : b.OneKing p.color) (h : b.admits p t = true) :
    b.mirror.leavesInCheck p.mirror t.mirror = b.leavesInCheck p t := by
  unfold leavesInCheck
  rw [apply_mirror]
  exact inCheck_mirror (hone.apply h)

/-! ### What may be played -/

theorem mem_moves_mirror (hone : b.OneKing p.color) :
    t.mirror ∈ b.mirror.moves p.mirror ↔ t ∈ b.moves p := by
  have hcheck : b.mirror.inCheck p.mirror.color = b.inCheck p.color := inCheck_mirror hone
  rw [mem_moves_iff, mem_moves_iff, admits_mirror, hcheck]
  refine and_congr_right fun h => ?_
  rw [leavesInCheck_mirror hone h]

theorem play?_mirror (hone : b.OneKing p.color) :
    b.mirror.play? p.mirror t.mirror = (b.play? p t).map fun r => (r.1.mirror, r.2.mirror) := by
  unfold play?
  rw [if_congr (mem_moves_mirror hone) rfl rfl, apply_mirror, placement_mirror]
  split_ifs <;> rfl

theorem isCheckmate_mirror (hone : b.OneKing c) :
    b.mirror.isCheckmate c.opponent = b.isCheckmate c := by
  rw [Bool.eq_iff_iff, isCheckmate_iff, isCheckmate_iff, inCheck_mirror hone,
    Piece.mirror_involutive.surjective.forall]
  refine and_congr_right fun _ => forall_congr' fun p => ?_
  rw [Square.mirror_involutive.surjective.forall]
  refine forall_congr' fun t => imp_congr_ctx Color.opponent_inj ?_
  rintro rfl
  rw [admits_mirror]
  refine forall_congr' fun h => ?_
  rw [leavesInCheck_mirror hone h]

/-- **Both sides play the same game.**  Take any board on which each side has at most one king, and
mirror it: upside down, each man of the other side, visit counts along with their squares.  For the
mirrored piece, squares and side, a move is admitted on the mirrored board, a square of a row of the
board attacked, a side in check, a side mated exactly as on the board.  The squares that a piece may
be played to are the mirrored ones, and playing to one of them leaves the mirrored board and reports
what it did mirrored. -/
theorem rules_mirror (hone : ∀ c, b.OneKing c) :
    (∀ p t, b.mirror.admits p.mirror t.mirror = b.admits p t) ∧
      (∀ t c, t.row < 8 → b.mirror.isAttacked t.mirror c.opponent = b.isAttacked t c) ∧
      (∀ c, b.mirror.inCheck c.opponent = b.inCheck c) ∧
      (∀ c, b.mirror.isCheckmate c.opponent = b.isCheckmate c) ∧
      (∀ p u, u ∈ b.mirror.moves p.mirror ↔ u ∈ (b.moves p).map Square.mirror) ∧
      ∀ p t, b.mirror.play? p.mirror t.mirror =
        (b.play? p t).map fun r => (r.1.mirror, r.2.mirror) := by
  refine ⟨b.admits_mirror, fun t c ht => isAttacked_mirror ht, fun c => inCheck_mirror (hone c),
    fun c => isCheckmate_mirror (hone c), fun p u => ?_, fun p t => play?_mirror (hone p.color)⟩
  rw [← u.mirror_mirror, mem_moves_mirror (hone p.color),
    List.mem_map_of_injective Square.mirror_involutive.injective]

/-- White may castle to the king's wing, and so may black on the mirrored board. -/
theorem rules_mirror_castling :
    ∃ b r b', start.playAll? (castlingLine.take 5) = some b ∧ (∀ c, b.OneKing c) ∧
      b.play? ⟨.king, .white, ⟨7, 4⟩⟩ ⟨7, 6⟩ = some (r, b') ∧
      b.mirror.play? ⟨.king, .black, ⟨0, 4⟩⟩ ⟨0, 6⟩ = some (r.mirror, b'.mirror) ∧
      r.mirror.rookLeg = some ⟨⟨0, 7⟩, ⟨0, 5⟩⟩ := by
  have hfacts : (start.playAll? (castlingLine.take 5)).map
      (fun b => decide (⟨7, 6⟩ ∈ b.moves ⟨.king, .white, ⟨7, 4⟩⟩)) = some true := by
    decide +kernel
  obtain ⟨b, hb, hmem⟩ := Option.map_eq_some_iff.mp hfacts
  have hone : ∀ c, b.OneKing c := fun c => (oneKing_start c).playAll hb
  have hplay := play?_eq_some_iff.mpr ⟨of_decide_eq_true hmem, rfl, rfl⟩
  have hmirrored := (rules_mirror hone).2.2.2.2.2 ⟨.king, .white, ⟨7, 4⟩⟩ ⟨7, 6⟩
  rw [hplay] at hmirrored
  exact ⟨b, _, _, hb, hone, hplay, hmirrored, rfl⟩

/-! ### Lines -/

/-- A line of play may be played on the mirrored board with the sides swapped, and ends on the
mirrored board. -/
theorem playAll?_mirror (hone : ∀ c, b.OneKing c) (ms : List Ply) :
    b.mirror.playAll? (ms.map Ply.mirror) = (b.playAll? ms).map mirror := by
  induction ms generalizing b with
  | nil => rfl
  | cons m ms ih =>
      have hplay := play?_mirror (t := m.target) (hone m.piece.color)
      rw [List.map_cons, playAll?, playAll?, Ply.mirror, hplay]
      cases hp : b.play? m.piece m.target with
      | none => rfl
      | some placed =>
          obtain ⟨r, b'⟩ := placed
          obtain ⟨hmem, -, rfl⟩ := play?_eq_some_iff.mp hp
          exact ih fun c => (hone c).apply (admits_of_mem_moves hmem)

theorem mirror_start : start.mirror = start := by
  decide +kernel

/-- From the start a line may be played exactly if black may play it as white and white as black. -/
theorem playAll?_start_mirror (ms : List Ply) :
    start.playAll? (ms.map Ply.mirror) = (start.playAll? ms).map mirror := by
  rw [← playAll?_mirror oneKing_start, mirror_start]

end Board
end LiveChess
