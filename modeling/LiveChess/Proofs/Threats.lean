import Mathlib.Data.List.TakeWhile
import LiveChess.Proofs.CastlingRights
import LiveChess.Proofs.Lines

/-! # Threats

Attacks and moves are told apart by two rules of their own: a pawn attacks where it does not step, and
a king never attacks by castling.  Where an enemy stands they come to the same
(`admits_iff_attacks`), and what stands on a square matters to no attack on it (`attacks_congr`).
So a square is attacked exactly if a man put there for the other side could be taken
(`isAttacked_iff_admits`), and a king is in check exactly if it could be. -/

namespace LiveChess.Board

variable {b b' : Board} {p : Piece} {s t u : Square} {c : Color} {m : Man}

/-! ### Attacks from afar -/

theorem isAttacked_iff : b.isAttacked t c = true ↔
    ∃ p, p.color = c ∧ b.manAt p.square = some p.man ∧ b.attacks p t = true := by
  unfold isAttacked
  simp only [List.any_eq_true, mem_pieces, Bool.and_eq_true, decide_eq_true_eq]
  constructor
  · rintro ⟨p, hp, hc, ha⟩
    exact ⟨p, hc, hp, ha⟩
  · rintro ⟨p, hc, hp, ha⟩
    exact ⟨p, hp, hc, ha⟩

theorem not_mem_between (s t : Square) : t ∉ Square.between s t := by
  intro h
  have := List.mem_takeWhile_imp h
  simp at this

/-- What is between two squares depends on the squares between them. -/
theorem isBlocked_congr (h : ∀ u ∈ Square.between s t, b.manAt u = b'.manAt u) :
    b.isBlocked s t = b'.isBlocked s t := by
  unfold isBlocked
  rw [Bool.eq_iff_iff, List.any_eq_true, List.any_eq_true]
  exact exists_congr fun u => and_congr_right fun hu => by rw [h u hu]

/-- An attack depends on what is between the piece and its target, if they are on one line. -/
theorem attacks_congr (h : p.square.OnLine t → b.isBlocked p.square t = b'.isBlocked p.square t) :
    b.attacks p t = b'.attacks p t := by
  have hstraight : (Square.isStraight p.square t && !b.isBlocked p.square t) =
      (Square.isStraight p.square t && !b'.isBlocked p.square t) := by
    cases hl : Square.isStraight p.square t with
    | false => rfl
    | true => rw [h (.inl hl)]
  have hdiagonal : (Square.isDiagonal p.square t && !b.isBlocked p.square t) =
      (Square.isDiagonal p.square t && !b'.isBlocked p.square t) := by
    cases hl : Square.isDiagonal p.square t with
    | false => rfl
    | true => rw [h (.inr hl)]
  unfold attacks reaches
  simp only [Bool.and_or_distrib_right, hstraight, hdiagonal]

/-! ### Attacks and captures -/

/-- Nobody castles onto a man. -/
theorem castling?_of_occupied (h : b.manAt t ≠ none) : b.castling? p t = none := by
  cases hc : b.castling? p t with
  | none => rfl
  | some leg =>
      obtain ⟨hp, w, rfl, -⟩ := exists_wing_of_castling? hc
      have hsome : (b.castling? p (p.color.castlesTo w)).isSome = true := by rw [hc]; rfl
      rw [hp] at hsome
      have hready := castlingReady_iff.mp (castling?_king_iff.mp hsome).1
      exact absurd (isBlocked_kingHome.mp hready.2.2.2 _ (Color.castlesTo_mem_pathway _ w)) h

/-- A pawn captures where it attacks, and goes nowhere else onto an enemy. -/
theorem admitsPawn_iff_attacks (ht : b.manAt t = some m) (hm : m.color ≠ p.color) :
    b.admitsPawn p t = true ↔
      Square.rowDelta p.square t = p.color.forward ∧ (Square.colDelta p.square t).abs = 1 := by
  have h01 : (0 : Int8) ≠ 1 := by decide
  unfold admitsPawn
  rw [ht]
  simp only [Option.isNone_some, Option.any_some, Bool.and_false, Bool.false_and, decide_eq_true hm]
  split_ifs with h1 h2 h3
  · simp [h1.1]
  · simp [h2.1]
  · simp [h3]
  · simp only [false_iff]
    exact fun h => h3 ⟨h.2, h.1⟩

/-- Onto an enemy a piece may go exactly if it stands where it says and attacks it. -/
theorem admits_iff_attacks (ht : b.manAt t = some m) (hm : m.color ≠ p.color) :
    b.admits p t = true ↔ b.manAt p.square = some p.man ∧ b.attacks p t = true := by
  have hstands : b.pieceAt p.square = some p ↔ b.manAt p.square = some p.man := by
    rw [pieceAt_eq_some_iff]
    exact and_iff_right rfl
  have hcastle : b.castling? p t = none := castling?_of_occupied (by rw [ht]; exact Option.some_ne_none m)
  have hpawn := admitsPawn_iff_attacks (p := p) ht hm
  unfold admits attacks
  simp only [decide_eq_true (onBoard_of_manAt ht), ht, Option.any_some, decide_eq_false hm,
    Bool.not_false, Bool.and_true, Bool.true_and, Bool.and_eq_true, decide_eq_true_eq, hstands,
    hcastle, Option.isSome_none, Bool.or_false]
  refine and_congr_right fun hp => ?_
  have hne : p.square ≠ t := by
    rintro rfl
    rw [hp] at ht
    cases ht
    exact hm rfl
  rw [and_iff_right hne]
  cases p.kind with
  | pawn => rw [hpawn, Bool.and_eq_true, decide_eq_true_iff, decide_eq_true_iff]
  | king => rfl
  | rook => rfl
  | knight => rfl
  | bishop => rfl
  | queen => rfl

theorem ne_of_attacks (h : b.attacks p t = true) : p.square ≠ t :=
  of_decide_eq_true (Bool.and_eq_true_iff.mp h).1

/-! ### Attacked squares and checks -/

theorem manAt_put (hs : s.OnBoard) (m : Man) :
    (b.put (m.on s)).manAt u = if u = s then some m else b.manAt u := by
  unfold put
  rw [manAt_setMan]
  by_cases hu : u = s
  · rw [if_pos ⟨hu, hs⟩, if_pos hu]
    rfl
  · rw [if_neg fun h => hu h.1, if_neg hu]

/-- What is put on a square changes no attack on it. -/
theorem attacks_put (hs : s.OnBoard) (m : Man) :
    (b.put (m.on s)).attacks p s = b.attacks p s := by
  refine attacks_congr fun _ => isBlocked_congr fun u hu => ?_
  rw [manAt_put hs, if_neg]
  rintro rfl
  exact not_mem_between _ _ hu

theorem isAttacked_iff_capture (hs : s.OnBoard) (m : Man) (hm : m.color ≠ c) :
    b.isAttacked s c = true ↔ ∃ p, p.color = c ∧ (b.put (m.on s)).admits p s = true := by
  have hthere : (b.put (m.on s)).manAt s = some m := by rw [manAt_put hs, if_pos rfl]
  rw [isAttacked_iff]
  refine exists_congr fun p => and_congr_right ?_
  rintro rfl
  rw [admits_iff_attacks hthere hm, attacks_put hs]
  refine and_congr_left fun ha => ?_
  rw [manAt_put hs, if_neg (ne_of_attacks ha)]

theorem inCheck_iff : b.inCheck c = true ↔
    ∃ s, b.findKing c = some s ∧ b.isAttacked s c.opponent = true := by
  unfold inCheck
  cases b.findKing c with
  | none => simp
  | some s => simp

/-- **Attacked is what could be taken.**  On every board a side attacks a square exactly if, with a
pawn of the other side put there in place of what stands there, some piece of the side may move onto
it.  So a side is in check exactly if its king is found and, on the board as it is, some piece of the
other side may move onto the king's square. -/
theorem isAttacked_iff_admits (b : Board) :
    (∀ s c, s.OnBoard → (b.isAttacked s c = true ↔
      ∃ p, p.color = c ∧ (b.put ⟨.pawn, c.opponent, s⟩).admits p s = true)) ∧
    ∀ c, b.inCheck c = true ↔
      ∃ s, b.findKing c = some s ∧ b.manAt s = some ⟨.king, c⟩ ∧
        ∃ p, p.color = c.opponent ∧ b.admits p s = true := by
  refine ⟨fun s c hs => ?_, fun c => ?_⟩
  · exact isAttacked_iff_capture hs ⟨.pawn, c.opponent⟩ (Color.opponent_ne c)
  · rw [inCheck_iff]
    refine exists_congr fun s => and_congr_right fun hfind => ?_
    have hking := manAt_of_findKing hfind
    rw [and_iff_right hking, isAttacked_iff]
    refine exists_congr fun p => and_congr_right fun hp => ?_
    exact (admits_iff_attacks hking (by rw [hp]; exact (Color.opponent_ne c).symm)).symm

/-- A rook attacks the square of the knight that it covers: it could take back there. -/
theorem isAttacked_of_cover :
    let b := ofPieces [⟨.rook, .white, ⟨7, 0⟩⟩, ⟨.knight, .white, ⟨4, 0⟩⟩, ⟨.king, .black, ⟨0, 0⟩⟩]
    Square.OnBoard ⟨4, 0⟩ ∧ b.isAttacked ⟨4, 0⟩ .white = true ∧
      (∃ p, p.color = .white ∧ (b.put ⟨.pawn, .black, ⟨4, 0⟩⟩).admits p ⟨4, 0⟩ = true) ∧
      b.inCheck .black = false := by
  intro b
  have hs : Square.OnBoard ⟨4, 0⟩ := by decide
  have hcover : b.isAttacked ⟨4, 0⟩ .white = true := by decide +kernel
  have hcheck : b.inCheck .black = false := by decide +kernel
  exact ⟨hs, hcover, ((isAttacked_iff_admits b).1 _ _ hs).mp hcover, hcheck⟩

end LiveChess.Board
