import LiveChess.Proofs.Arrays
import LiveChess.Proofs.CastlingRights

/-! # The material of a line of play

A line of play from the start loses a man with every capture it reports, of the side that did not
move, and no other (`tally_apply`).  Every man on a board of the line goes back to one square of the
start, where the same man stood (`Traced`): a bishop to one of the same shade.  Pawns only walk
forward, so none stands on its home row, and one on the row where it started has never been touched.
`material_of_line` puts this together, with the array of the board, whose pieces always name the
squares of their cells. -/

namespace LiveChess

theorem Color.eq_opponent_of_ne {c d : Color} (h : d ≠ c) : d = c.opponent := by
  cases c <;> cases d <;> first | rfl | exact absurd rfl h

/-- The color of a square as a square: 0 or 1, like a8. -/
def Square.shade (s : Square) : Nat := (s.row.toNat + s.col.toNat) % 2

/-- Where the man that stands on a square after a ply stood before it. -/
def Ply.cameFrom (m : Ply) (u : Square) : Square :=
  if u = m.target then m.piece.square
  else
    match Board.carriedRook m.piece m.target with
    | some leg => if u = leg.target then leg.source else u
    | none => u

/-- Where the man that stands on a square after a line stood before it. -/
def origin (ms : List Ply) (u : Square) : Square := ms.foldr Ply.cameFrom u

theorem origin_concat (ms : List Ply) (m : Ply) (u : Square) :
    origin (ms ++ [m]) u = origin ms (m.cameFrom u) := by
  unfold origin
  rw [List.foldr_append]
  rfl

namespace Board

variable {b b' : Board} {p : Piece} {s t u : Square} {c : Color} {m : Ply} {x : Man}

/-! ### Lines and what they report -/

/-- Play a line, listing what each ply reports. -/
def reports? (b : Board) : List Ply → Option (List Placement × Board)
  | [] => some ([], b)
  | m :: ms =>
    match b.play? m.piece m.target with
    | some (r, b) => (b.reports? ms).map fun x => (r :: x.1, x.2)
    | none => none

theorem reports?_cons_eq_some {ms : List Ply} {rs : List Placement}
    (h : b.reports? (m :: ms) = some (rs, b')) :
    m.target ∈ b.moves m.piece ∧ ∃ rest, rs = b.placement m.piece m.target :: rest ∧
      (b.apply m.piece m.target).reports? ms = some (rest, b') := by
  simp only [reports?] at h
  cases hp : b.play? m.piece m.target with
  | none =>
      rw [hp] at h
      cases h
  | some r =>
      obtain ⟨r, c⟩ := r
      obtain ⟨hm, rfl, rfl⟩ := play?_eq_some_iff.mp hp
      rw [hp] at h
      obtain ⟨⟨rest, d⟩, hd, e⟩ := Option.map_eq_some_iff.mp h
      cases e
      exact ⟨hm, rest, rfl, hd⟩

/-- What holds at the start of a line and is kept by every ply of it, with its report, holds at the
end. -/
theorem reports?_induction {P : List Ply → List Placement → Board → Prop} (hnil : P [] [] b)
    (hstep : ∀ ms rs c m, P ms rs c → c.admits m.piece m.target = true →
      P (ms ++ [m]) (rs ++ [c.placement m.piece m.target]) (c.apply m.piece m.target))
    {ms : List Ply} {rs : List Placement} (h : b.reports? ms = some (rs, b')) : P ms rs b' := by
  -- the part of the line that has been played is put in front
  suffices hfrom : ∀ ms ns ss rs d, P ns ss d → d.reports? ms = some (rs, b') →
      P (ns ++ ms) (ss ++ rs) b' by
    exact hfrom ms [] [] rs b hnil h
  intro ms
  induction ms with
  | nil =>
      intro ns ss rs d hd h
      cases h
      simpa using hd
  | cons m ms ih =>
      intro ns ss rs d hd h
      obtain ⟨hm, rest, rfl, hrest⟩ := reports?_cons_eq_some h
      have := ih _ _ rest _ (hstep ns ss d m hd (admits_of_mem_moves hm)) hrest
      simpa using this

theorem playAll?_of_reports {ms : List Ply} {rs : List Placement}
    (h : b.reports? ms = some (rs, b')) : b.playAll? ms = some b' := by
  induction ms generalizing b rs with
  | nil =>
      cases h
      rfl
  | cons m ms ih =>
      obtain ⟨hm, rest, -, hrest⟩ := reports?_cons_eq_some h
      simp only [playAll?, play?, if_pos hm]
      exact ih hrest

/-! ### Counting men -/

/-- The number of men of which something holds. -/
def tally (b : Board) (P : Man → Bool) : Nat := Square.all.countP fun s => (b.manAt s).any P

theorem countP_pieces (b : Board) (P : Man → Bool) :
    b.pieces.countP (fun p => P p.man) = b.tally P := by
  unfold pieces tally pieceAt
  rw [List.countP_filterMap]
  congr 1
  funext s
  cases b.manAt s <;> rfl

theorem length_pieces (b : Board) : b.pieces.length = b.tally fun _ => true := by
  rw [← countP_pieces, List.countP_true]

theorem nodup_all : Square.all.Nodup := by decide +kernel

/-- Counts over a list without repetition that differ at most at one member. -/
theorem countP_add_of_agree {α : Type} {l : List α} (hl : l.Nodup) {f g : α → Bool} {a : α}
    (ha : a ∈ l) (h : ∀ x, x ≠ a → f x = g x) :
    l.countP f + (g a).toNat = l.countP g + (f a).toNat := by
  induction l with
  | nil => cases ha
  | cons y l ih =>
      obtain ⟨hy, hl⟩ := List.nodup_cons.mp hl
      rw [List.countP_cons, List.countP_cons]
      rcases List.mem_cons.mp ha with rfl | hmem
      · have hsame : l.countP f = l.countP g := by
          refine List.countP_congr fun x hx => ?_
          rw [h x fun e => hy (e ▸ hx)]
        rw [hsame]
        cases f a <;> cases g a <;> simp
      · have hne : y ≠ a := fun e => hy (e ▸ hmem)
        have := ih hl hmem
        rw [h y hne]
        omega

theorem tally_setMan (b : Board) (P : Man → Bool) (hs : s.OnBoard) (x : Option Man) :
    (b.setMan s x).tally P + ((b.manAt s).any P).toNat = b.tally P + (x.any P).toNat := by
  have hset : (b.setMan s x).manAt s = x := by
    rw [manAt_setMan, if_pos ⟨rfl, hs⟩]
  have := countP_add_of_agree nodup_all (Square.mem_all.mpr hs)
    (f := fun u => ((b.setMan s x).manAt u).any P) (g := fun u => (b.manAt u).any P)
    fun u hu => by rw [manAt_setMan, if_neg fun e => hu e.1]
  rw [hset] at this
  exact this

theorem tally_relocate (b : Board) (P : Man → Bool) (hs : s.OnBoard) (ht : t.OnBoard)
    (hne : s ≠ t) : (b.relocate s t).tally P + ((b.manAt t).any P).toNat = b.tally P := by
  have htake := b.tally_setMan P hs none
  have hput := (b.setMan s none).tally_setMan P ht (b.manAt s)
  have hthere : (b.setMan s none).manAt t = b.manAt t := by
    rw [manAt_setMan, if_neg fun e => hne e.1.symm]
  have hsame : (b.relocate s t).tally P = ((b.setMan s none).setMan t (b.manAt s)).tally P := by
    unfold tally relocate
    simp only [manAt_visit]
  rw [hthere] at hput
  rw [hsame]
  simp only [Option.any_none, Bool.toNat_false] at htake
  omega

/-- The rook of a castling lands on an empty square of its own. -/
theorem manAt_crosses {leg : RookLeg} (h : b.admits p t = true) (hc : carriedRook p t = some leg) :
    leg.source ≠ leg.target ∧ (b.relocate p.square t).manAt leg.target = none := by
  obtain ⟨⟨hk, h2⟩, -⟩ := carriedRook_eq_some.mp hc
  have hway := carriedRook_spec h hc
  have hadmits := h
  obtain ⟨c, w, rfl, rfl⟩ := exists_castling_of_twoFiles h hk h2
  rw [carriedRook_king] at hc
  cases hc
  have hempty := isBlocked_kingHome.mp (castlingReady_iff.mp (castling?_king_iff.mp
    (Option.isSome_iff_exists.mpr ⟨_, hway⟩)).1).2.2.2
  have hapart : c.rookHome w ≠ c.crosses w ∧ c.crosses w ≠ c.castlesTo w ∧
      c.crosses w ∈ c.pathway w := by
    cases c <;> cases w <;> decide
  refine ⟨hapart.1, ?_⟩
  show (b.relocate c.kingHome (c.castlesTo w)).manAt (c.crosses w) = none
  rw [manAt_relocate (c.onBoard_castlesTo w), if_neg hapart.2.1, hempty _ hapart.2.2, ite_self]

/-- A move takes from the board what it reports to have captured, and nothing else. -/
theorem tally_apply (h : b.admits p t = true) (P : Man → Bool) :
    (b.apply p t).tally P + ((b.placement p t).captured.any fun q => P q.man).toNat =
      b.tally P := by
  obtain ⟨ht, hs, -, -, hne⟩ := admits_spec h
  have hmain := b.tally_relocate P hs ht hne
  have hcaptured : ((b.placement p t).captured.any fun q => P q.man) = (b.manAt t).any P := by
    unfold placement
    simp only [if_neg (Ne.symm hne), pieceAt]
    cases b.manAt t <;> rfl
  rw [hcaptured]
  unfold apply
  cases hc : carriedRook p t with
  | none => exact hmain
  | some leg =>
      obtain ⟨hsource, htarget⟩ := onBoard_of_carriedRook h hc
      obtain ⟨hapart, hempty⟩ := manAt_crosses h hc
      have hrook := (b.relocate p.square t).tally_relocate P hsource htarget hapart
      rw [hempty] at hrook
      exact (congrArg (· + _) hrook).trans hmain

/-- A captured man is the opponent's. -/
theorem color_of_captured (h : b.admits p t = true) {q : Piece}
    (hq : (b.placement p t).captured = some q) : q.color = p.color.opponent := by
  obtain ⟨-, -, -, hfree, hne⟩ := admits_spec h
  unfold placement at hq
  simp only [if_neg (Ne.symm hne)] at hq
  obtain ⟨-, hman⟩ := pieceAt_eq_some_iff.mp hq
  exact Color.eq_opponent_of_ne (hfree q.man hman)

/-! ### Where men come from -/

/-- A man on the board after a ply is the one that was moved, or the rook of a castling, or it was
there before and the ply left its square alone. -/
theorem moved_or_stood (h : b.admits m.piece m.target = true)
    (hu : (b.apply m.piece m.target).manAt u = some x) :
    u = m.target ∧ x = m.piece.man ∧ m.cameFrom u = m.piece.square ∨
      (∃ leg, carriedRook m.piece m.target = some leg ∧ u = leg.target ∧
        x = ⟨.rook, m.piece.color⟩ ∧ m.cameFrom u = leg.source) ∨
      u ∉ m.squares ∧ b.manAt u = some x ∧ m.cameFrom u = u := by
  unfold Ply.cameFrom Ply.squares
  cases hc : carriedRook m.piece m.target with
  | none =>
      rw [manAt_apply_of_plain h hc] at hu
      split_ifs at hu with ht hs
      · exact .inl ⟨ht, (Option.some.inj hu).symm, by rw [if_pos ht]⟩
      · refine .inr (.inr ⟨?_, hu, by rw [if_neg ht]⟩)
        simp [hs, ht]
  | some leg =>
      have hrow := (carriedRook_eq_some.mp hc).2
      have hapart : leg.target ≠ m.target := by
        intro e
        rcases RookLeg.ofKing?_eq_some hrow with ⟨hcol, rfl⟩ | ⟨hcol, rfl⟩
        · rw [← congrArg Square.col e] at hcol
          exact absurd (show (5 : UInt8) = 6 from hcol) (by decide)
        · rw [← congrArg Square.col e] at hcol
          exact absurd (show (3 : UInt8) = 2 from hcol) (by decide)
      rw [manAt_apply_of_castling h hc] at hu
      split_ifs at hu with h1 h2 h3 h4
      · refine .inr (.inl ⟨leg, rfl, h1, (Option.some.inj hu).symm, ?_⟩)
        simp [h1, hapart]
      · exact .inl ⟨h3, (Option.some.inj hu).symm, by rw [if_pos h3]⟩
      · refine .inr (.inr ⟨?_, hu, by simp [h1, h3]⟩)
        simp [h1, h2, h3, h4]

/-- The man on a square after a ply stood before it where it came from. -/
theorem manAt_cameFrom (h : b.admits m.piece m.target = true)
    (hu : (b.apply m.piece m.target).manAt u = some x) : b.manAt (m.cameFrom u) = some x := by
  obtain ⟨-, -, hman, -⟩ := admits_spec h
  rcases moved_or_stood h hu with ⟨-, rfl, e⟩ | ⟨leg, hc, -, rfl, e⟩ | ⟨-, hstood, e⟩
  · rw [e, hman]
  · have hway := castling?_eq_some (carriedRook_spec h hc)
    rw [e, (castlingReady_iff.mp hway.2.2.2.2.1).1]
  · rw [e, hstood]

/-- Different men come from different squares. -/
theorem cameFrom_inj {v : Square} {y : Man} (h : b.admits m.piece m.target = true)
    (hu : (b.apply m.piece m.target).manAt u = some x)
    (hv : (b.apply m.piece m.target).manAt v = some y) (e : m.cameFrom u = m.cameFrom v) :
    u = v := by
  have hsource : ∀ leg, carriedRook m.piece m.target = some leg →
      leg.source ≠ m.piece.square := by
    intro leg hc e
    obtain ⟨-, hhome, -, hleg, -⟩ := castling?_eq_some (carriedRook_spec h hc)
    have hcol := (RookLeg.ofKing?_apart hleg).2.2.2
    rw [e, hhome] at hcol
    exact hcol rfl
  have hstood : ∀ w, w ∉ m.squares → w ≠ m.piece.square ∧
      ∀ leg, carriedRook m.piece m.target = some leg → w ≠ leg.source := by
    intro w hw
    refine ⟨fun e => hw (e ▸ List.mem_cons_self), fun leg hc e => hw ?_⟩
    simp [Ply.squares, hc, e]
  rcases moved_or_stood h hu with ⟨rfl, -, eu⟩ | ⟨leg, hc, rfl, -, eu⟩ | ⟨hu, -, eu⟩
  · rcases moved_or_stood h hv with ⟨rfl, -, -⟩ | ⟨leg', hc', rfl, -, ev⟩ | ⟨hv, -, ev⟩
    · rfl
    · exact absurd (ev.symm.trans (e.symm.trans eu)) (hsource leg' hc')
    · exact absurd (ev.symm.trans (e.symm.trans eu)) (hstood v hv).1
  · rcases moved_or_stood h hv with ⟨rfl, -, ev⟩ | ⟨leg', hc', rfl, -, ev⟩ | ⟨hv, -, ev⟩
    · exact absurd (eu.symm.trans (e.trans ev)) (hsource leg hc)
    · rw [hc] at hc'
      cases hc'
      rfl
    · exact absurd (ev.symm.trans (e.symm.trans eu)) ((hstood v hv).2 leg hc)
  · rcases moved_or_stood h hv with ⟨rfl, -, ev⟩ | ⟨leg', hc', rfl, -, ev⟩ | ⟨-, -, ev⟩
    · exact absurd (eu.symm.trans (e.trans ev)) (hstood u hu).1
    · exact absurd (eu.symm.trans (e.trans ev)) ((hstood u hu).2 leg' hc')
    · exact eu.symm.trans (e.trans ev)

/-! ### How bishops and pawns go -/

theorem shade_of_isDiagonal (hs : s.OnBoard) (ht : t.OnBoard) (h : Square.isDiagonal s t = true) :
    t.shade = s.shade := by
  have hr := Square.toInt_rowDelta hs ht
  have hc := Square.toInt_colDelta hs ht
  have h1 : s.row.toNat < 8 := hs.1
  have h2 : s.col.toNat < 8 := hs.2
  have habs := congrArg Int8.toInt (of_decide_eq_true h)
  rw [Square.toInt_abs (by omega), Square.toInt_abs (by omega), hr, hc] at habs
  unfold Square.shade
  omega

/-- A bishop goes to squares of its own shade. -/
theorem shade_of_bishop (h : b.admits p t = true) (hk : p.kind = .bishop) :
    t.shade = p.square.shade := by
  obtain ⟨ht, hs, -⟩ := admits_spec h
  simp only [admits, hk, reaches, Bool.and_eq_true] at h
  exact shade_of_isDiagonal hs ht h.2.1

/-- A pawn goes one row forward, or two from the row where it starts. -/
theorem row_of_pawn (h : b.admits p t = true) (hk : p.kind = .pawn) :
    (t.row.toNat : Int) = p.square.row.toNat + p.color.forward.toInt ∨
      (t.row.toNat : Int) = p.square.row.toNat + 2 * p.color.forward.toInt := by
  obtain ⟨ht, hs, -⟩ := admits_spec h
  have hr := Square.toInt_rowDelta hs ht
  have htwo : (2 * p.color.forward).toInt = 2 * p.color.forward.toInt := by
    cases p.color <;> decide
  simp only [admits, hk, admitsPawn, Bool.and_eq_true] at h
  have hrows := h.2
  split_ifs at hrows with h1 h2 h3
  · left
    have := congrArg Int8.toInt h1.2
    omega
  · right
    have := congrArg Int8.toInt h2.2
    omega
  · left
    have := congrArg Int8.toInt h3.2
    omega

/-- A pawn that goes comes to neither row of its own side. -/
theorem row_of_pawn_ne (h : b.admits p t = true) (hk : p.kind = .pawn)
    (hhome : p.square.row ≠ p.color.homeRow) :
    t.row ≠ p.color.homeRow ∧ t.row ≠ p.color.pawnRow := by
  have hs : p.square.row.toNat < 8 := (admits_spec h).2.1.1
  have hrow := row_of_pawn h hk
  simp only [ne_eq, ← UInt8.toNat_inj] at hhome ⊢
  cases hc : p.color with
  | white =>
      rw [hc] at hrow hhome
      have h1 : Color.white.homeRow.toNat = 7 := rfl
      have h2 : Color.white.pawnRow.toNat = 6 := rfl
      have h3 : Color.white.forward.toInt = -1 := rfl
      omega
  | black =>
      rw [hc] at hrow
      have h1 : Color.black.homeRow.toNat = 0 := rfl
      have h2 : Color.black.pawnRow.toNat = 1 := rfl
      have h3 : Color.black.forward.toInt = 1 := rfl
      rw [hc] at hhome
      omega

/-! ### Along a line -/

/-- Every man goes back to the same man at the start, different men to different squares, and a
bishop to a square of its own shade. -/
structure Traced (ms : List Ply) (b : Board) : Prop where
  man : ∀ u x, b.manAt u = some x → start.manAt (origin ms u) = some x
  inj : ∀ u v x y, b.manAt u = some x → b.manAt v = some y → origin ms u = origin ms v → u = v
  shade : ∀ u c, b.manAt u = some ⟨.bishop, c⟩ → u.shade = (origin ms u).shade

theorem traced_start : Traced [] start :=
  ⟨fun _ _ h => h, fun _ _ _ _ _ _ e => e, fun _ _ _ => rfl⟩

theorem Traced.apply {ms : List Ply} (hb : Traced ms b) (h : b.admits m.piece m.target = true) :
    Traced (ms ++ [m]) (b.apply m.piece m.target) := by
  refine ⟨fun u x hu => ?_, fun u v x y hu hv e => ?_, fun u c hu => ?_⟩
  · rw [origin_concat]
    exact hb.man _ x (manAt_cameFrom h hu)
  · rw [origin_concat, origin_concat] at e
    exact cameFrom_inj h hu hv (hb.inj _ _ x y (manAt_cameFrom h hu) (manAt_cameFrom h hv) e)
  · rw [origin_concat, ← hb.shade _ c (manAt_cameFrom h hu)]
    rcases moved_or_stood h hu with ⟨rfl, hman, e⟩ | ⟨leg, -, -, hman, -⟩ | ⟨-, -, e⟩
    · rw [e]
      exact shade_of_bishop h (congrArg Man.kind hman).symm
    · cases hman
    · rw [e]

/-- No pawn stands on its home row, and no ply has touched a square on which a pawn of the row
starts and stands. -/
structure PawnsForward (ms : List Ply) (b : Board) : Prop where
  home : ∀ u c, b.manAt u = some ⟨.pawn, c⟩ → u.row ≠ c.homeRow
  untouched : ∀ u c, b.manAt u = some ⟨.pawn, c⟩ → u.row = c.pawnRow → ∀ m ∈ ms, u ∉ m.squares

theorem pawnsForward_start : PawnsForward [] start := by
  have hall : ∀ u ∈ Square.all, ∀ c ∈ [Color.white, .black],
      start.manAt u = some ⟨.pawn, c⟩ → u.row ≠ c.homeRow := by decide +kernel
  refine ⟨fun u c hu => ?_, fun _ _ _ _ _ h => absurd h List.not_mem_nil⟩
  exact hall u (Square.mem_all.mpr (onBoard_of_manAt hu)) c (by cases c <;> simp) hu

theorem PawnsForward.apply {ms : List Ply} (hb : PawnsForward ms b)
    (h : b.admits m.piece m.target = true) :
    PawnsForward (ms ++ [m]) (b.apply m.piece m.target) := by
  have hman := (admits_spec h).2.2.1
  have hcases : ∀ u c, (b.apply m.piece m.target).manAt u = some ⟨.pawn, c⟩ →
      u.row ≠ c.homeRow ∧ u.row ≠ c.pawnRow ∨
        u ∉ m.squares ∧ b.manAt u = some ⟨.pawn, c⟩ := by
    intro u c hu
    rcases moved_or_stood h hu with ⟨rfl, e, -⟩ | ⟨leg, -, -, e, -⟩ | ⟨hmem, hstood, -⟩
    · left
      obtain ⟨hk, rfl⟩ := Man.mk.inj e
      rw [← e] at hman
      exact row_of_pawn_ne h hk.symm (hb.home _ _ hman)
    · cases e
    · exact .inr ⟨hmem, hstood⟩
  refine ⟨fun u c hu => ?_, fun u c hu hrow n hn => ?_⟩
  · rcases hcases u c hu with ⟨hne, -⟩ | ⟨-, hstood⟩
    · exact hne
    · exact hb.home u c hstood
  · rcases hcases u c hu with ⟨-, hne⟩ | ⟨hmem, hstood⟩
    · exact absurd hrow hne
    · rcases List.mem_append.mp hn with hn | hn
      · exact hb.untouched u c hstood hrow n hn
      · rw [List.mem_singleton.mp hn]
        exact hmem

/-! ### Arrays along a line -/

theorem carryAll_squares {ms : List Ply} {rs : List Placement} (h : b.reports? ms = some (rs, b')) :
    b.squares.carryAll ms = .ok (rs.map (·.captured), b'.squares) := by
  induction ms generalizing b rs with
  | nil =>
      cases h
      rfl
  | cons m ms ih =>
      obtain ⟨hm, rest, rfl, hrest⟩ := reports?_cons_eq_some h
      simp only [Grid.carryAll, bind, Except.bind, pure, Except.pure,
        carry_squares (admits_of_mem_moves hm), ih hrest, List.map_cons]

theorem putAll_squares {ps : List Piece} (h : ∀ p ∈ ps, p.square.OnBoard) :
    ps.foldlM Grid.put b.squares = .ok (ps.foldl Board.put b).squares := by
  induction ps generalizing b with
  | nil => rfl
  | cons p ps ih =>
      rw [List.foldlM_cons, put_squares b (h p List.mem_cons_self)]
      exact ih fun q hq => h q (List.mem_cons_of_mem p hq)

/-- The array of the start is made by putting the pieces into empty cells. -/
theorem putAll_start :
    (army .white ++ army .black).foldlM Grid.put (.tabulate fun _ => none) =
      .ok start.squares := by
  have hempty : empty.squares = .tabulate fun _ => none := by
    refine Grid.tabulate_congr fun s _ => ?_
    unfold pieceAt
    rw [manAt_empty]
    rfl
  rw [← hempty]
  exact putAll_squares (by decide)

/-! ### The account of a line -/

/-- The material on a board that a line of play has led to from the start, with what the line has
reported. -/
structure Material (ms : List Ply) (rs : List Placement) (b : Board) : Prop where
  /-- The array of the start is carried along with the line, and reports the same captures. -/
  array : ((army .white ++ army .black).foldlM Grid.put (.tabulate fun _ => none)).bind
    (·.carryAll ms) = .ok (rs.map (·.captured), b.squares)
  /-- A piece in a cell names the square of the cell. -/
  cell : ∀ s p, s.OnBoard → b.squares.get s = .ok (some p) → p.square = s
  count : b.pieces.length + rs.countP (·.captured.isSome) = 32
  captured : ∀ r ∈ rs, ∀ q, r.captured = some q → q.color = r.piece.color.opponent
  shrinks : ∀ ns rs' b', b.reports? ns = some (rs', b') → ∀ x : Man,
    b'.pieces.countP (fun p => p.man = x) ≤ b.pieces.countP fun p => p.man = x
  kings : ∀ c, (b.pieces.countP fun p => p.man = ⟨.king, c⟩) ≤ 1 ∧
    ∀ s, b.findKing c = some s ↔ b.manAt s = some ⟨.king, c⟩
  pawns : PawnsForward ms b
  traced : Traced ms b

theorem tally_reports {ms : List Ply} {rs : List Placement} (P : Man → Bool)
    (h : b.reports? ms = some (rs, b')) :
    b'.tally P + rs.countP (fun r => r.captured.any fun q => P q.man) = b.tally P := by
  refine reports?_induction (P := fun _ rs c =>
    c.tally P + rs.countP (fun r => r.captured.any fun q => P q.man) = b.tally P) (by simp) ?_ h
  intro _ rs c m hc hm
  have := tally_apply hm P
  rw [List.countP_append, List.countP_singleton]
  cases hq : (c.placement m.piece m.target).captured.any fun q => P q.man <;>
    rw [hq] at this <;> simp at this ⊢ <;> omega

/-- **Material is only ever captured.**  Play any line of moves from the start, by either side in any
order.  The array of the board, carried along from that of the start, holds in each cell a piece
that names the square of the cell, if any.  There are 32 men less one for each capture that was
reported, and each captured man was one of the mover's opponent.  In whatever way the line goes on,
no side comes to have more men of a kind than now; it has at most one king, which is the one that is
found.  No pawn stands on its home row; one on the row where pawns of its side start stands where no
ply has taken or put a man.  Every man goes back to the same man of the start, a bishop to one on a
square of the same shade, and no two to one. -/
theorem material_of_line {ms : List Ply} {rs : List Placement}
    (h : start.reports? ms = some (rs, b)) : Material ms rs b := by
  have hking : ∀ c, start.tally (fun x => x = ⟨.king, c⟩) = 1 := by
    intro c
    cases c <;> decide +kernel
  have hmen : start.tally (fun _ => true) = 32 := by decide +kernel
  refine ⟨?_, fun s p hs hp => square_of_get_squares hs hp, ?_, ?_, ?_, fun c => ⟨?_, fun s => ?_⟩,
    ?_, ?_⟩
  · rw [putAll_start]
    exact carryAll_squares h
  · rw [length_pieces, ← hmen, ← tally_reports (fun _ => true) h]
    congr 2
  · refine reports?_induction (P := fun _ rs _ => ∀ r ∈ rs, ∀ q, r.captured = some q →
      q.color = r.piece.color.opponent) (by simp) (fun _ rs c m hrs hm r hr q hq => ?_) h
    rcases List.mem_append.mp hr with hr | hr
    · exact hrs r hr q hq
    · rw [List.mem_singleton.mp hr] at hq ⊢
      exact color_of_captured hm hq
  · intro ns rs' b' hns x
    rw [countP_pieces b' (fun y => y = x), countP_pieces b fun y => y = x,
      ← tally_reports (fun y => y = x) hns]
    exact Nat.le_add_right _ _
  · rw [countP_pieces b fun x => x = ⟨.king, c⟩]
    have := tally_reports (fun x => x = ⟨.king, c⟩) h
    rw [hking] at this
    omega
  · exact findKing_eq_some_iff ((oneKing_start c).playAll (playAll?_of_reports h))
  · exact reports?_induction (P := fun ms _ d => PawnsForward ms d) pawnsForward_start
      (fun _ _ _ _ hd hm => hd.apply hm) h
  · exact reports?_induction (P := fun ms _ d => Traced ms d) traced_start
      (fun _ _ _ _ hd hm => hd.apply hm) h

/-- White's bishop takes the pawn on a6 and its pawn walks on: 31 men are left, and the bishop still
stands on a light square, like f1. -/
theorem material_of_capture :
    let line : List Ply := [⟨⟨.pawn, .white, ⟨6, 4⟩⟩, ⟨4, 4⟩⟩, ⟨⟨.pawn, .black, ⟨1, 0⟩⟩, ⟨2, 0⟩⟩,
      ⟨⟨.bishop, .white, ⟨7, 5⟩⟩, ⟨2, 0⟩⟩, ⟨⟨.pawn, .white, ⟨4, 4⟩⟩, ⟨3, 4⟩⟩]
    ∃ rs b, start.reports? line = some (rs, b) ∧
      rs.map (·.captured) = [none, none, some ⟨.pawn, .black, ⟨2, 0⟩⟩, none] ∧
      b.pieces.length = 31 ∧ b.manAt ⟨2, 0⟩ = some ⟨.bishop, .white⟩ ∧
      origin line ⟨2, 0⟩ = ⟨7, 5⟩ ∧ (⟨2, 0⟩ : Square).shade = (⟨7, 5⟩ : Square).shade := by
  intro line
  have hline : ((start.reports? line).map fun x => (x.1.map (·.captured), x.2.manAt ⟨2, 0⟩)) =
      some ([none, none, some ⟨.pawn, .black, ⟨2, 0⟩⟩, none], some ⟨.bishop, .white⟩) := by
    decide +kernel
  obtain ⟨⟨rs, b⟩, h, hfacts⟩ := Option.map_eq_some_iff.mp hline
  obtain ⟨hcaptured, hbishop⟩ := Prod.mk.inj hfacts
  have horigin : origin line ⟨2, 0⟩ = ⟨7, 5⟩ := by decide
  have hmaterial := material_of_line h
  refine ⟨rs, b, h, hcaptured, ?_, hbishop, horigin, ?_⟩
  · have hone : rs.countP (·.captured.isSome) = (rs.map (·.captured)).countP Option.isSome := by
      rw [List.countP_map]
      rfl
    have := hmaterial.count
    rw [hone, hcaptured] at this
    simpa using this
  · rw [← horigin]
    exact hmaterial.traced.shade _ _ hbishop

end Board
end LiveChess
