import LiveChess.Proofs.Squares

/-! # Lines of squares

The geometry of the board on whole numbers, which neither wrap nor end: `Apart` says how many rows
and columns one square lies from another.  The squares that are looked at between the two ends of a
line are those of the whole steps that come before the far end (`mem_between`). -/

namespace LiveChess.Square

/-- `t` lies `m` rows and `n` columns from `s`. -/
def Apart (s t : Square) (m n : Int) : Prop :=
  (t.row.toNat : Int) = s.row.toNat + m ∧ (t.col.toNat : Int) = s.col.toNat + n

instance (s t : Square) (m n : Int) : Decidable (s.Apart t m n) :=
  inferInstanceAs (Decidable (_ ∧ _))

variable {s t u v : Square} {m n : Int} {dr dc : Int8} {k : Nat}

theorem toNat_lt (h : s.OnBoard) : s.row.toNat < 8 ∧ s.col.toNat < 8 := h

theorem onBoard_iff_toNat : s.OnBoard ↔ s.row.toNat < 8 ∧ s.col.toNat < 8 := Iff.rfl

theorem eq_iff_toNat : s = t ↔ s.row.toNat = t.row.toNat ∧ s.col.toNat = t.col.toNat := by
  obtain ⟨r, c⟩ := s
  obtain ⟨r', c'⟩ := t
  simp only [mk.injEq, UInt8.toNat_inj]

/-- There is one square at a distance. -/
theorem Apart.unique (hs : s.Apart t m n) (hu : s.Apart u m n) : t = u := by
  have h1 := hs.1.trans hu.1.symm
  have h2 := hs.2.trans hu.2.symm
  exact eq_iff_toNat.mpr ⟨by omega, by omega⟩

theorem apart_add (h : s.Apart v m n) {m' n' : Int} :
    v.Apart u m' n' ↔ s.Apart u (m' + m) (n' + n) := by
  obtain ⟨hr, hc⟩ := h
  unfold Apart
  rw [hr, hc]
  constructor <;> rintro ⟨h1, h2⟩ <;> constructor <;> omega

/-! ### Steps -/

theorem offset_eq_some_iff : s.offset dr dc = some t ↔ t.OnBoard ∧ s.Apart t dr.toInt dc.toInt := by
  obtain ⟨r, c⟩ := t
  rw [onBoard_iff_toNat]
  unfold offset Apart
  simp only [Option.ite_none_right_eq_some, Option.some.injEq, mk.injEq, ← UInt8.toNat_inj,
    UInt8.toNat_ofNat']
  constructor
  · rintro ⟨⟨h1, h2, h3, h4⟩, h5, h6⟩
    omega
  · rintro ⟨⟨h1, h2⟩, h3, h4⟩
    omega

theorem toInt_step (d : Int8) : (step d).toInt = d.toInt.sign := by
  have h0 : (0 : Int8).toInt = 0 := rfl
  unfold step
  split_ifs with hneg hzero
  · rw [Int8.lt_iff_toInt_lt, h0] at hneg
    rw [Int.sign_eq_neg_one_of_neg hneg]
    rfl
  · rw [hzero]
    rfl
  · rw [Int8.lt_iff_toInt_lt, h0] at hneg
    have : d.toInt ≠ 0 := fun e => hzero (Int8.toInt_inj.mp (e.trans h0.symm))
    rw [Int.sign_eq_one_of_pos (by omega)]
    rfl

theorem exists_apart (hr : 0 ≤ s.row.toNat + m ∧ s.row.toNat + m < 8)
    (hc : 0 ≤ s.col.toNat + n ∧ s.col.toNat + n < 8) : ∃ v, v.OnBoard ∧ s.Apart v m n := by
  refine ⟨⟨(s.row.toNat + m).toNat.toUInt8, (s.col.toNat + n).toNat.toUInt8⟩, ?_⟩
  rw [onBoard_iff_toNat]
  unfold Apart
  simp only [UInt8.toNat_ofNat']
  omega

/-! ### Differences as distances -/

theorem rowDelta_eq_iff (hs : s.OnBoard) (ht : t.OnBoard) :
    rowDelta s t = dr ↔ (t.row.toNat : Int) = s.row.toNat + dr.toInt := by
  rw [← Int8.toInt_inj, toInt_rowDelta hs ht]
  omega

theorem abs_colDelta_eq_iff (hs : s.OnBoard) (ht : t.OnBoard) :
    (colDelta s t).abs = dc ↔ (((t.col.toNat : Int) - s.col.toNat).natAbs : Int) = dc.toInt := by
  have h1 := toNat_lt hs
  have h2 := toNat_lt ht
  have hc := toInt_colDelta hs ht
  rw [← Int8.toInt_inj, toInt_abs (by omega), hc]

/-- What a pawn asks of its target, as a distance. -/
theorem deltas_iff (hs : s.OnBoard) (ht : t.OnBoard) (hk : dc.toInt = k) (dr : Int8) :
    ((colDelta s t).abs = dc ∧ rowDelta s t = dr) ↔
      ∃ n : Int, n.natAbs = k ∧ s.Apart t dr.toInt n := by
  rw [abs_colDelta_eq_iff hs ht, rowDelta_eq_iff hs ht, hk]
  constructor
  · rintro ⟨hc, hr⟩
    exact ⟨t.col.toNat - s.col.toNat, by omega, hr, by omega⟩
  · rintro ⟨n, hn, hr, hc⟩
    exact ⟨by rw [hc, add_sub_cancel_left, hn], hr⟩

/-! ### Lines -/

/-- One square in some direction. -/
def IsStep (m n : Int) : Prop := m.natAbs ≤ 1 ∧ n.natAbs ≤ 1 ∧ (m ≠ 0 ∨ n ≠ 0)

/-- One square along a row or a column. -/
def IsRookStep (m n : Int) : Prop := m.natAbs + n.natAbs = 1

/-- One square along a diagonal. -/
def IsBishopStep (m n : Int) : Prop := m.natAbs = 1 ∧ n.natAbs = 1

/-- One square along a row or a column and two along the other. -/
def IsLeap (m n : Int) : Prop := m.natAbs = 1 ∧ n.natAbs = 2 ∨ m.natAbs = 2 ∧ n.natAbs = 1

theorem IsRookStep.isStep (h : IsRookStep m n) : IsStep m n := by
  unfold IsRookStep at h
  unfold IsStep
  omega

theorem IsBishopStep.isStep (h : IsBishopStep m n) : IsStep m n := by
  unfold IsBishopStep at h
  unfold IsStep
  omega

theorem IsStep.symm (h : IsStep m n) : IsStep n m := ⟨h.2.1, h.1, h.2.2.symm⟩

theorem IsStep.eq_or (h : IsStep m n) : m = -1 ∨ m = 0 ∨ m = 1 := by
  have := h.1
  omega

/-- Steps in one direction keep its sign. -/
theorem IsStep.sign_mul (h : IsStep m n) (hk : 0 < k) : Int.sign (k * m) = m := by
  rw [Int.sign_mul, Int.sign_natCast_of_ne_zero (by omega), one_mul]
  rcases h.eq_or with rfl | rfl | rfl <;> rfl

/-- Different numbers of steps end on different squares. -/
theorem IsStep.apart_inj {i : Nat} (h : IsStep m n) (hk : s.Apart t (k * m) (k * n))
    (hi : s.Apart t (i * m) (i * n)) : k = i := by
  have hrow : (k : Int) * m = i * m := by have := hk.1.symm.trans hi.1; omega
  have hcol : (k : Int) * n = i * n := by have := hk.2.symm.trans hi.2; omega
  rcases h.2.2 with h0 | h0
  · exact Int.natCast_inj.mp (Int.eq_of_mul_eq_mul_right h0 hrow)
  · exact Int.natCast_inj.mp (Int.eq_of_mul_eq_mul_right h0 hcol)

/-- Whole steps from one square of the board to another do not leave it on the way. -/
theorem IsStep.exists_first (h : IsStep m n) (hs : s.OnBoard) (ht : t.OnBoard) (hk : 0 < k)
    (hst : s.Apart t (k * m) (k * n)) : ∃ v, v.OnBoard ∧ s.Apart v m n := by
  obtain ⟨hr, hc⟩ := hst
  have h1 := toNat_lt hs
  have h2 := toNat_lt ht
  refine exists_apart ?_ ?_
  · rcases h.eq_or with rfl | rfl | rfl <;> omega
  · rcases h.symm.eq_or with rfl | rfl | rfl <;> omega

/-- The number of steps between two squares of the board is small. -/
theorem IsStep.le_seven (h : IsStep m n) (hs : s.OnBoard) (ht : t.OnBoard)
    (hst : s.Apart t (k * m) (k * n)) : k ≤ 7 := by
  obtain ⟨hr, hc⟩ := hst
  have h1 := toNat_lt hs
  have h2 := toNat_lt ht
  have hne := h.2.2
  rcases h.eq_or with rfl | rfl | rfl <;> rcases h.symm.eq_or with rfl | rfl | rfl <;> omega

theorem mem_takeWhile_ray {N : Nat} (hd : IsStep dr.toInt dc.toInt) (hs : s.OnBoard)
    (ht : t.OnBoard) (hk : 0 < k) (hkN : k ≤ N)
    (hst : s.Apart t (k * dr.toInt) (k * dc.toInt)) :
    u ∈ (ray s dr dc N).takeWhile (fun v => decide (v ≠ t)) ↔
      ∃ j : Nat, 0 < j ∧ j < k ∧ s.Apart u (j * dr.toInt) (j * dc.toInt) := by
  induction N generalizing s k with
  | zero => omega
  | succ N ih =>
      obtain ⟨v, hv, hsv⟩ := hd.exists_first hs ht hk hst
      rw [ray, offset_eq_some_iff.mpr ⟨hv, hsv⟩]
      by_cases h1 : k = 1
      · -- the first step is the last one
        subst h1
        have hvt : v = t := hsv.unique (by simpa using hst)
        rw [hvt, List.takeWhile_cons_of_neg (by simp)]
        simp only [List.not_mem_nil, false_iff, not_exists, not_and]
        omega
      · obtain ⟨i, rfl⟩ : ∃ i, k = i + 1 := ⟨k - 1, by omega⟩
        have hvt : v ≠ t := by
          rintro rfl
          exact h1 (hd.apart_inj hst (by simpa using hsv))
        have hrest : v.Apart t (i * dr.toInt) (i * dc.toInt) := by
          rw [apart_add hsv]
          simpa [add_mul] using hst
        rw [List.takeWhile_cons_of_pos (by simpa using hvt), List.mem_cons,
          ih hv (by omega) (by omega) hrest]
        constructor
        · rintro (rfl | ⟨j, hj, hji, hju⟩)
          · exact ⟨1, by omega, by omega, by simpa using hsv⟩
          · refine ⟨j + 1, by omega, by omega, ?_⟩
            rw [apart_add hsv] at hju
            simpa [add_mul] using hju
        · rintro ⟨j, hj, hji, hju⟩
          obtain ⟨j, rfl⟩ : ∃ i, j = i + 1 := ⟨j - 1, by omega⟩
          by_cases h0 : j = 0
          · left
            subst h0
            exact Apart.unique (by simpa using hju) hsv
          · refine .inr ⟨j, by omega, by omega, ?_⟩
            rw [apart_add hsv]
            simpa [add_mul] using hju

theorem natAbs_mul_sign (d : Int) : (d.natAbs : Int) * d.sign = d := by
  rw [mul_comm, Int.sign_mul_natAbs]

theorem isStraight_iff (hne : s ≠ t) : isStraight s t = true ↔
    ∃ (m n : Int) (k : Nat), IsRookStep m n ∧ 0 < k ∧ s.Apart t (k * m) (k * n) := by
  have hsame : isStraight s t = true ↔ s.row.toNat = t.row.toNat ∨ s.col.toNat = t.col.toNat := by
    simp only [isStraight, Bool.or_eq_true, decide_eq_true_eq, UInt8.toNat_inj]
  have hne := mt eq_iff_toNat.mpr hne
  rw [hsame]
  constructor
  · rintro (h | h)
    · set d : Int := t.col.toNat - s.col.toNat with hd
      have hd0 : d ≠ 0 := by omega
      refine ⟨0, d.sign, d.natAbs, ?_, by omega, by omega, ?_⟩
      · rw [IsRookStep, Int.natAbs_sign_of_ne_zero hd0]
        rfl
      · rw [natAbs_mul_sign]
        omega
    · set d : Int := t.row.toNat - s.row.toNat with hd
      have hd0 : d ≠ 0 := by omega
      refine ⟨d.sign, 0, d.natAbs, ?_, by omega, ?_, by omega⟩
      · rw [IsRookStep, Int.natAbs_sign_of_ne_zero hd0]
        rfl
      · rw [natAbs_mul_sign]
        omega
  · rintro ⟨m, n, k, hmn, -, hr, hc⟩
    have h0 : m = 0 ∨ n = 0 := by
      unfold IsRookStep at hmn
      omega
    rcases h0 with rfl | rfl
    · left
      omega
    · right
      omega

theorem isDiagonal_iff (hs : s.OnBoard) (ht : t.OnBoard) (hne : s ≠ t) : isDiagonal s t = true ↔
    ∃ (m n : Int) (k : Nat), IsBishopStep m n ∧ 0 < k ∧ s.Apart t (k * m) (k * n) := by
  have h1 := toNat_lt hs
  have h2 := toNat_lt ht
  have hsame : isDiagonal s t = true ↔
      ((t.row.toNat : Int) - s.row.toNat).natAbs = ((t.col.toNat : Int) - s.col.toNat).natAbs := by
    have hr := toInt_rowDelta hs ht
    rw [isDiagonal, decide_eq_true_iff, eq_comm, abs_colDelta_eq_iff hs ht, toInt_abs (by omega), hr,
      Int.natCast_inj, eq_comm]
  have hne := mt eq_iff_toNat.mpr hne
  rw [hsame]
  constructor
  · intro h
    set d : Int := t.row.toNat - s.row.toNat with hd
    set e : Int := t.col.toNat - s.col.toNat with he
    have hd0 : d ≠ 0 := by omega
    have he0 : e ≠ 0 := by omega
    refine ⟨d.sign, e.sign, d.natAbs, ?_, by omega, ?_, ?_⟩
    · exact ⟨Int.natAbs_sign_of_ne_zero hd0, Int.natAbs_sign_of_ne_zero he0⟩
    · rw [natAbs_mul_sign]
      omega
    · rw [h, natAbs_mul_sign]
      omega
  · rintro ⟨m, n, k, ⟨hm, hn⟩, -, hr, hc⟩
    rw [hr, hc, add_sub_cancel_left, add_sub_cancel_left, Int.natAbs_mul, Int.natAbs_mul, hm, hn]

/-- The jumps of a knight are the leaps. -/
theorem isLeap_iff : IsLeap m n ↔ ∃ d ∈ knightJumps, d.1.toInt = m ∧ d.2.toInt = n := by
  constructor
  · rintro (⟨hm, hn⟩ | ⟨hm, hn⟩)
    · rcases Int.natAbs_eq_iff.mp hm with rfl | rfl <;>
        rcases Int.natAbs_eq_iff.mp hn with rfl | rfl <;> decide
    · rcases Int.natAbs_eq_iff.mp hm with rfl | rfl <;>
        rcases Int.natAbs_eq_iff.mp hn with rfl | rfl <;> decide
  · rintro ⟨d, hd, rfl, rfl⟩
    unfold IsLeap
    fin_cases hd <;> decide

theorem isKnightJump_iff (ht : t.OnBoard) :
    isKnightJump s t = true ↔ ∃ m n, IsLeap m n ∧ s.Apart t m n := by
  simp only [isKnightJump, List.any_eq_true, decide_eq_true_eq, offset_eq_some_iff, isLeap_iff]
  constructor
  · rintro ⟨d, hd, -, hst⟩
    exact ⟨_, _, ⟨d, hd, rfl, rfl⟩, hst⟩
  · rintro ⟨m, n, ⟨d, hd, rfl, rfl⟩, hst⟩
    exact ⟨d, hd, ht, hst⟩

theorem isKingStep_iff_apart (hs : s.OnBoard) (ht : t.OnBoard) (hne : s ≠ t) :
    isKingStep s t = true ↔ ∃ m n, IsStep m n ∧ s.Apart t m n := by
  have hne := mt eq_iff_toNat.mpr hne
  rw [isKingStep_iff hs ht]
  constructor
  · rintro ⟨hr, hc⟩
    exact ⟨_, _, ⟨hr, hc, by omega⟩, by omega, by omega⟩
  · rintro ⟨m, n, ⟨hm, hn, -⟩, hr, hc⟩
    omega

/-- The squares between the ends of a line of `k` steps are those of fewer steps. -/
theorem mem_between (hd : IsStep m n) (hs : s.OnBoard) (ht : t.OnBoard) (hk : 0 < k)
    (hst : s.Apart t (k * m) (k * n)) :
    u ∈ between s t ↔ ∃ j : Nat, 0 < j ∧ j < k ∧ s.Apart u (j * m) (j * n) := by
  have hr := toInt_rowDelta hs ht
  have hc := toInt_colDelta hs ht
  have hk8 := hd.le_seven hs ht hst
  -- the walk goes by the signs of the differences, which are those of one step
  have hdr : (step (rowDelta s t)).toInt = m := by
    rw [toInt_step, hr, hst.1, add_sub_cancel_left, hd.sign_mul hk]
  have hdc : (step (colDelta s t)).toInt = n := by
    rw [toInt_step, hc, hst.2, add_sub_cancel_left, hd.symm.sign_mul hk]
  unfold between
  rw [← hdr, ← hdc] at hd hst ⊢
  exact mem_takeWhile_ray hd hs ht hk (by omega) hst

/-- Between two squares of a line, on the row of its far end. -/
theorem mem_between_row (hd : IsStep m n) (hs : s.OnBoard) (ht : t.OnBoard) (hk : 0 < k)
    (hst : s.Apart t (k * m) (k * n)) (hrow : u.row = t.row) :
    u ∈ between s t ↔ s.row = t.row ∧
      (s.col.toNat < u.col.toNat ∧ u.col.toNat < t.col.toNat ∨
        t.col.toNat < u.col.toNat ∧ u.col.toNat < s.col.toNat) := by
  rw [mem_between hd hs ht hk hst]
  obtain ⟨hr, hc⟩ := hst
  have hne := hd.2.2
  rw [← UInt8.toNat_inj] at hrow ⊢
  constructor
  · rintro ⟨j, hj, hjk, hur, huc⟩
    -- the line comes back to its row only if it never leaves it
    have hsame : ((k : Int) - j) * m = 0 := by rw [sub_mul]; omega
    have hm : m = 0 := (mul_eq_zero.mp hsame).resolve_left (by omega)
    subst hm
    rcases hd.symm.eq_or with rfl | rfl | rfl <;> omega
  · rintro ⟨hsame, hcol⟩
    have hzero : (k : Int) * m = 0 := by omega
    have hm : m = 0 := (mul_eq_zero.mp hzero).resolve_left (by omega)
    subst hm
    refine ⟨((u.col.toNat : Int) - s.col.toNat).natAbs, ?_, ?_, by omega, ?_⟩
    · omega
    · rcases hd.symm.eq_or with rfl | rfl | rfl <;> omega
    · rcases hd.symm.eq_or with rfl | rfl | rfl <;> omega

/-- On a row, a column or a diagonal. -/
def OnLine (s t : Square) : Prop := isStraight s t = true ∨ isDiagonal s t = true

theorem OnLine.exists_steps (h : s.OnLine t) (hs : s.OnBoard) (ht : t.OnBoard) (hne : s ≠ t) :
    ∃ (m n : Int) (k : Nat), IsStep m n ∧ 0 < k ∧ s.Apart t (k * m) (k * n) := by
  rcases h with h | h
  · obtain ⟨m, n, k, hmn, hk, hst⟩ := (isStraight_iff hne).mp h
    exact ⟨m, n, k, hmn.isStep, hk, hst⟩
  · obtain ⟨m, n, k, hmn, hk, hst⟩ := (isDiagonal_iff hs ht hne).mp h
    exact ⟨m, n, k, hmn.isStep, hk, hst⟩

end LiveChess.Square
