import LiveChess.Proofs.Rebuild

/-! # One king a side

No move makes a second king (`OneKing.apply`), so on every board that is played to from the start
a side has at most one, and the king that `findKing` finds is that one (`findKing_eq_some_iff`). -/

namespace LiveChess.Board

variable {b b' : Board} {p : Piece} {s t : Square} {c : Color}

/-- The side has at most one king. -/
def OneKing (b : Board) (c : Color) : Prop :=
  ∀ s t, b.manAt s = some ⟨.king, c⟩ → b.manAt t = some ⟨.king, c⟩ → s = t

theorem OneKing.apply (hb : b.OneKing c) (h : b.admits p t = true) : (b.apply p t).OneKing c := by
  obtain ⟨-, -, hman, -⟩ := admits_spec h
  intro s s' hs hs'
  rcases manAt_apply_cases h hs with ⟨rfl, hm⟩ | hm | ⟨hne, hstood⟩
  · rcases manAt_apply_cases h hs' with ⟨rfl, -⟩ | hm' | ⟨hne', hstood'⟩
    · rfl
    · cases hm'
    · exact absurd (hb s' p.square hstood' (hman.trans (congrArg some hm.symm))) hne'
  · cases hm
  · rcases manAt_apply_cases h hs' with ⟨rfl, hm'⟩ | hm' | ⟨-, hstood'⟩
    · exact absurd (hb s p.square hstood (hman.trans (congrArg some hm'.symm))) hne
    · cases hm'
    · exact hb s s' hstood hstood'

theorem manAt_of_findKing (h : b.findKing c = some s) : b.manAt s = some ⟨.king, c⟩ := by
  unfold findKing at h
  obtain ⟨q, hq, rfl⟩ := Option.map_eq_some_iff.mp h
  have hkind := List.find?_some hq
  simp only [Bool.and_eq_true, decide_eq_true_eq] at hkind
  rw [mem_pieces.mp (List.mem_of_find?_eq_some hq), Piece.man, hkind.1, hkind.2]

/-- The only king of a side is the one that is found. -/
theorem findKing_eq_some_iff (hb : b.OneKing c) :
    b.findKing c = some s ↔ b.manAt s = some ⟨.king, c⟩ := by
  refine ⟨manAt_of_findKing, fun hs => ?_⟩
  cases hf : b.findKing c with
  | some s' => rw [hb s' s (manAt_of_findKing hf) hs]
  | none =>
      unfold findKing at hf
      rw [Option.map_eq_none_iff, List.find?_eq_none] at hf
      exact absurd (by simp) (hf ⟨.king, c, s⟩ (mem_pieces.mpr hs))

/-! ### From the start -/

theorem square_of_king_start (h : start.manAt s = some ⟨.king, c⟩) : s = c.kingHome := by
  have hall : ∀ s ∈ Square.all, start.manAt s = some ⟨.king, c⟩ → s = c.kingHome := by
    cases c <;> decide +kernel
  exact hall s (Square.mem_all.mpr (onBoard_of_manAt h)) h

theorem oneKing_start (c : Color) : start.OneKing c := by
  intro s t hs ht
  rw [square_of_king_start hs, square_of_king_start ht]

/-- A line of play keeps every side at one king. -/
theorem OneKing.playAll (hb : b.OneKing c) {ms : List Ply} (h : b.playAll? ms = some b') :
    b'.OneKing c := by
  refine playAll?_induction (P := fun _ d => d.OneKing c) hb ?_ ms h
  intro ms d m hd hm
  exact hd.apply (admits_of_mem_moves hm)

end LiveChess.Board
