import Mathlib.Tactic
import LiveChess.Fault

/-! # Squares of the board

The sixty-four squares are the members of `Square.all`.  On them differences of rows and columns
do not wrap (`toInt_rowDelta`, `toInt_colDelta`), and the text of a square is read back as that
square and is the only text that is (`ofText?_eq_some_iff`). -/

namespace LiveChess.Square

/-! ### The list of all squares -/

theorem mem_all {s : Square} : s ∈ all ↔ s.OnBoard := by
  obtain ⟨r, c⟩ := s
  simp only [all, List.mem_flatMap, List.mem_map, List.mem_range, mk.injEq, OnBoard,
    UInt8.lt_iff_toNat_lt]
  constructor
  · rintro ⟨i, hi, j, hj, rfl, rfl⟩
    constructor <;> simp <;> omega
  · rintro ⟨hr, hc⟩
    exact ⟨r.toNat, hr, c.toNat, hc, by simp, by simp⟩

/-! ### Differences -/

theorem toInt_toInt8 {n : UInt8} (h : n < 8) : n.toInt8.toInt = n.toNat := by
  have h' : n.toBitVec.toNat < 8 := h
  show n.toBitVec.toInt = _
  rw [BitVec.toInt_eq_toNat_of_lt (by omega)]
  rfl

theorem toInt_abs {d : Int8} (h : -128 < d.toInt) : d.abs.toInt = d.toInt.natAbs := by
  show d.toBitVec.abs.toInt = _
  rw [BitVec.toInt_abs_eq_natAbs_of_ne_intMin]
  · rfl
  · intro e
    have : d.toBitVec.toInt = -128 := by rw [e]; decide
    exact absurd this (ne_of_gt h)

theorem toInt_rowDelta {s t : Square} (hs : s.OnBoard) (ht : t.OnBoard) :
    (rowDelta s t).toInt = t.row.toNat - s.row.toNat := by
  have h1 : s.row.toNat < 8 := hs.1
  have h2 : t.row.toNat < 8 := ht.1
  rw [rowDelta, Int8.toInt_sub, toInt_toInt8 hs.1, toInt_toInt8 ht.1, Int.bmod_eq_of_le] <;> omega

theorem toInt_colDelta {s t : Square} (hs : s.OnBoard) (ht : t.OnBoard) :
    (colDelta s t).toInt = t.col.toNat - s.col.toNat := by
  have h1 : s.col.toNat < 8 := hs.2
  have h2 : t.col.toNat < 8 := ht.2
  rw [colDelta, Int8.toInt_sub, toInt_toInt8 hs.2, toInt_toInt8 ht.2, Int.bmod_eq_of_le] <;> omega

theorem isKingStep_iff {s t : Square} (hs : s.OnBoard) (ht : t.OnBoard) :
    isKingStep s t = true ↔
      ((t.row.toNat : Int) - s.row.toNat).natAbs ≤ 1 ∧
        ((t.col.toNat : Int) - s.col.toNat).natAbs ≤ 1 := by
  have hr := toInt_rowDelta hs ht
  have hc := toInt_colDelta hs ht
  have h1 : s.row.toNat < 8 := hs.1
  have h2 : s.col.toNat < 8 := hs.2
  have h3 : (1 : Int8).toInt = 1 := rfl
  simp only [isKingStep, Bool.and_eq_true, decide_eq_true_eq, Int8.le_iff_toInt_le]
  rw [toInt_abs (by omega), toInt_abs (by omega), hr, hc, h3]
  omega

/-! ### Text -/

theorem legible_text : ∀ r < 8, ∀ c < 8,
    ('a' ≤ Char.ofNat (97 + c) ∧ Char.ofNat (97 + c) ≤ 'h' ∧
      '1' ≤ Char.ofNat (56 - r) ∧ Char.ofNat (56 - r) ≤ '8') ∧
    (Char.ofNat (97 + c)).toNat = 97 + c ∧ (Char.ofNat (56 - r)).toNat = 56 - r := by
  decide

theorem ofText?_text {s : Square} (h : s.OnBoard) : ofText? s.text = some s := by
  have h1 : s.row.toNat < 8 := h.1
  have h2 : s.col.toNat < 8 := h.2
  obtain ⟨hl, hc, hr⟩ := legible_text s.row.toNat h1 s.col.toNat h2
  have hlist : s.text.toList = [Char.ofNat (97 + s.col.toNat), Char.ofNat (56 - s.row.toNat)] := by
    simp [text]
  unfold ofText?
  rw [hlist]
  simp only
  rw [if_pos hl, hc, hr]
  obtain ⟨r, c⟩ := s
  simp only [Option.some.injEq, mk.injEq] at h1 ⊢
  constructor
  · rw [show 56 - (56 - r.toNat) = r.toNat by omega]; simp
  · rw [show 97 + c.toNat - 97 = c.toNat by omega]; simp

theorem ofText?_eq_some_iff {text : String} {s : Square} :
    ofText? text = some s ↔ s.OnBoard ∧ text = s.text := by
  constructor
  · intro h
    unfold ofText? at h
    split at h
    · rename_i file rank hlist
      split at h
      · rename_i hl
        have hn : 97 ≤ file.toNat ∧ file.toNat ≤ 104 ∧ 49 ≤ rank.toNat ∧ rank.toNat ≤ 56 := hl
        cases h
        have hr : ((56 - rank.toNat).toUInt8).toNat = 56 - rank.toNat := by simp; omega
        have hc : ((file.toNat - 97).toUInt8).toNat = file.toNat - 97 := by simp; omega
        refine ⟨⟨?_, ?_⟩, ?_⟩
        · rw [UInt8.lt_iff_toNat_lt, hr]
          show _ < 8
          omega
        · rw [UInt8.lt_iff_toNat_lt, hc]
          show _ < 8
          omega
        · rw [Square.text, hr, hc, show 97 + (file.toNat - 97) = file.toNat by omega,
            show 56 - (56 - rank.toNat) = rank.toNat by omega, Char.ofNat_toNat, Char.ofNat_toNat,
            ← hlist, String.ofList_toList]
      · cases h
    · cases h
  · rintro ⟨h, rfl⟩
    exact ofText?_text h

end LiveChess.Square
