import LiveChess.Proofs.Arrays

/-! # Arithmetic that fails instead of wrapping

The arithmetic of the rules once more, on bytes and signed bytes, as computations that fail when a
result does not fit (`Checked`).  On squares of the board none of it fails, and it comes to what the
rules compute: differences of rows and columns (`rowDelta_ok`, `colDelta_ok`), what is made of them,
and the text of a square (`text_ok`).  Going from any square and reading any text never fails
(`offset_ok`, `ofText?_ok`). -/

namespace LiveChess.Checked

variable {α β : Type}

@[simp] theorem ok_bind (x : α) (f : α → Checked β) : ((.ok x : Checked α) >>= f) = f x := rfl

@[simp] theorem pure_eq_ok (x : α) : (pure x : Checked α) = .ok x := rfl

/-! ### Lists -/

theorem anyM_ok {p : α → Checked Bool} {q : α → Bool} {l : List α}
    (h : ∀ x ∈ l, p x = .ok (q x)) : l.anyM p = .ok (l.any q) := by
  induction l with
  | nil => rfl
  | cons x l ih =>
      rw [List.anyM, h x List.mem_cons_self, ok_bind, List.any_cons]
      cases q x with
      | true => rfl
      | false => exact ih fun y hy => h y (List.mem_cons_of_mem x hy)

theorem allM_ok {p : α → Checked Bool} {q : α → Bool} {l : List α}
    (h : ∀ x ∈ l, p x = .ok (q x)) : l.allM p = .ok (l.all q) := by
  induction l with
  | nil => rfl
  | cons x l ih =>
      rw [List.allM, h x List.mem_cons_self, ok_bind, List.all_cons]
      cases q x with
      | true => exact ih fun y hy => h y (List.mem_cons_of_mem x hy)
      | false => rfl

theorem mapM_ok {f : α → Checked β} {g : α → β} {l : List α}
    (h : ∀ x ∈ l, f x = .ok (g x)) : l.mapM f = .ok (l.map g) := by
  induction l with
  | nil => rfl
  | cons x l ih =>
      rw [List.mapM_cons, h x List.mem_cons_self, ok_bind,
        ih fun y hy => h y (List.mem_cons_of_mem x hy)]
      rfl

theorem filterM_ok {p : α → Checked Bool} {q : α → Bool} {l : List α}
    (h : ∀ x ∈ l, p x = .ok (q x)) : l.filterM p = .ok (l.filter q) := by
  have haux : ∀ acc, l.filterAuxM p acc = .ok ((l.filter q).reverse ++ acc) := by
    induction l with
    | nil => exact fun acc => rfl
    | cons x l ih =>
        intro acc
        rw [List.filterAuxM, h x List.mem_cons_self, ok_bind,
          ih fun y hy => h y (List.mem_cons_of_mem x hy)]
        cases hx : q x <;> simp [hx]
  rw [List.filterM, haux, ok_bind]
  simp

/-! ### Numbers -/

/-- A result that must be a signed byte. -/
def i8 (n : Int) : Checked Int8 :=
  if -128 ≤ n ∧ n ≤ 127 then .ok (Int8.ofInt n) else .error .overflow

/-- A result that must be a byte. -/
def u8 (n : Int) : Checked UInt8 :=
  if 0 ≤ n ∧ n ≤ 255 then .ok (UInt8.ofNat n.toNat) else .error .overflow

/-- A result that must be a signed number of 16 bits. -/
def i16 (n : Int) : Checked Int := if -32768 ≤ n ∧ n ≤ 32767 then .ok n else .error .overflow

/-- A result that must be a number of 32 bits. -/
def u32 (n : Nat) : Checked UInt32 :=
  if n < 2 ^ 32 then .ok (UInt32.ofNat n) else .error .overflow

theorem u8_ok {n : Nat} {i : Int} (hi : i = n) (h : n ≤ 255) : u8 i = .ok n.toUInt8 := by
  subst hi
  unfold u8
  rw [if_pos ⟨by omega, by omega⟩]
  rfl

/-- The distance of a signed difference. -/
def abs (d : Int8) : Checked Int8 := i8 d.toInt.natAbs

/-- Twice a signed byte. -/
def double (d : Int8) : Checked Int8 := i8 (2 * d.toInt)

theorem abs_ok {d : Int8} (h : -128 < d.toInt) : abs d = .ok d.abs := by
  have hle : d.toInt ≤ 127 := d.toInt_le
  unfold abs i8
  rw [if_pos ⟨by omega, by omega⟩, ← Square.toInt_abs h, Int8.ofInt_toInt]

theorem double_forward (c : Color) : double c.forward = .ok (2 * c.forward) := by
  cases c <;> rfl

/-! ### Squares -/

variable {s t : Square}

/-- Rows from `s` to `t`. -/
def rowDelta (s t : Square) : Checked Int8 := i8 (t.row.toInt8.toInt - s.row.toInt8.toInt)

/-- Columns from `s` to `t`. -/
def colDelta (s t : Square) : Checked Int8 := i8 (t.col.toInt8.toInt - s.col.toInt8.toInt)

/-- The square `dr` rows and `dc` columns away, if that is on the board. -/
def offset (s : Square) (dr dc : Int8) : Checked (Option Square) := do
  let row ← i16 (s.row.toNat + dr.toInt)
  let col ← i16 (s.col.toNat + dc.toInt)
  if 0 ≤ row ∧ row < 8 ∧ 0 ≤ col ∧ col < 8 then
    pure (some ⟨row.toNat.toUInt8, col.toNat.toUInt8⟩)
  else
    pure none

/-- On one diagonal. -/
def isDiagonal (s t : Square) : Checked Bool := do
  let rows ← abs (← rowDelta s t)
  let cols ← abs (← colDelta s t)
  pure (decide (rows = cols))

/-- At most one row and one column apart. -/
def isKingStep (s t : Square) : Checked Bool := do
  let rows ← abs (← rowDelta s t)
  if rows ≤ 1 then
    let cols ← abs (← colDelta s t)
    pure (decide (cols ≤ 1))
  else
    pure false

/-- One knight jump apart. -/
def isKnightJump (s t : Square) : Checked Bool :=
  Square.knightJumps.anyM fun d => do
    let u ← offset s d.1 d.2
    pure (decide (u = some t))

theorem rowDelta_ok (hs : s.OnBoard) (ht : t.OnBoard) :
    rowDelta s t = .ok (Square.rowDelta s t) := by
  have h1 : s.row.toNat < 8 := hs.1
  have h2 : t.row.toNat < 8 := ht.1
  unfold rowDelta i8 Square.rowDelta
  rw [if_pos, Int8.ofInt_sub, Int8.ofInt_toInt, Int8.ofInt_toInt]
  rw [Square.toInt_toInt8 hs.1, Square.toInt_toInt8 ht.1]
  omega

/-- Off the board a difference may be out of range. -/
example : rowDelta ⟨128, 0⟩ ⟨127, 0⟩ = .error .overflow := by decide

theorem colDelta_ok (hs : s.OnBoard) (ht : t.OnBoard) :
    colDelta s t = .ok (Square.colDelta s t) := by
  have h1 : s.col.toNat < 8 := hs.2
  have h2 : t.col.toNat < 8 := ht.2
  unfold colDelta i8 Square.colDelta
  rw [if_pos, Int8.ofInt_sub, Int8.ofInt_toInt, Int8.ofInt_toInt]
  rw [Square.toInt_toInt8 hs.2, Square.toInt_toInt8 ht.2]
  omega

theorem abs_rowDelta (hs : s.OnBoard) (ht : t.OnBoard) :
    abs (Square.rowDelta s t) = .ok (Square.rowDelta s t).abs := by
  have h1 : s.row.toNat < 8 := hs.1
  refine abs_ok ?_
  rw [Square.toInt_rowDelta hs ht]
  omega

theorem abs_colDelta (hs : s.OnBoard) (ht : t.OnBoard) :
    abs (Square.colDelta s t) = .ok (Square.colDelta s t).abs := by
  have h1 : s.col.toNat < 8 := hs.2
  refine abs_ok ?_
  rw [Square.toInt_colDelta hs ht]
  omega

theorem offset_ok (s : Square) (dr dc : Int8) : offset s dr dc = .ok (s.offset dr dc) := by
  have h1 := s.row.toNat_lt
  have h2 := s.col.toNat_lt
  have h3 : dr.toInt ≤ 127 := dr.toInt_le
  have h4 : -128 ≤ dr.toInt := dr.le_toInt
  have h5 : dc.toInt ≤ 127 := dc.toInt_le
  have h6 : -128 ≤ dc.toInt := dc.le_toInt
  unfold offset i16 Square.offset
  rw [if_pos (by omega), if_pos (by omega)]
  simp only [ok_bind, pure_eq_ok]
  split_ifs <;> rfl

theorem isDiagonal_ok (hs : s.OnBoard) (ht : t.OnBoard) :
    isDiagonal s t = .ok (Square.isDiagonal s t) := by
  simp only [isDiagonal, rowDelta_ok hs ht, colDelta_ok hs ht, abs_rowDelta hs ht,
    abs_colDelta hs ht, ok_bind, pure_eq_ok, Square.isDiagonal]

theorem isKingStep_ok (hs : s.OnBoard) (ht : t.OnBoard) :
    isKingStep s t = .ok (Square.isKingStep s t) := by
  simp only [isKingStep, rowDelta_ok hs ht, colDelta_ok hs ht, abs_rowDelta hs ht,
    abs_colDelta hs ht, ok_bind, pure_eq_ok, Square.isKingStep]
  split_ifs with h <;> simp [h]

theorem isKnightJump_ok (s t : Square) : isKnightJump s t = .ok (Square.isKnightJump s t) := by
  refine anyM_ok fun d _ => ?_
  rw [offset_ok, ok_bind, pure_eq_ok]

/-! ### Text -/

/-- The square of a file letter `a` to `h` and a rank digit `1` to `8`, and of nothing else. -/
def ofText? (text : String) : Checked (Option Square) :=
  match text.toList with
  | [file, rank] =>
    if 'a' ≤ file ∧ file ≤ 'h' ∧ '1' ≤ rank ∧ rank ≤ '8' then do
      let digit ← u8 (rank.toNat - 48)
      let row ← u8 (8 - digit.toNat)
      let col ← u8 (file.toNat - 97)
      pure (some ⟨row, col⟩)
    else
      pure none
  | _ => pure none

/-- The file letter and the rank of a square. -/
def text (s : Square) : Checked String := do
  let file ← u8 (97 + s.col.toNat)
  let rank ← u8 (8 - s.row.toNat)
  pure (String.ofList [Char.ofNat file.toNat] ++ toString rank.toNat)

theorem ofText?_ok (text : String) : ofText? text = .ok (Square.ofText? text) := by
  unfold ofText? Square.ofText?
  rcases text.toList with _ | ⟨file, _ | ⟨rank, _ | ⟨c, l⟩⟩⟩
  · rfl
  · rfl
  · simp only
    split_ifs with h
    · have hn : 97 ≤ file.toNat ∧ file.toNat ≤ 104 ∧ 49 ≤ rank.toNat ∧ rank.toNat ≤ 56 := h
      have hdigit : (Nat.toUInt8 (rank.toNat - 48)).toNat = rank.toNat - 48 := by simp; omega
      rw [u8_ok (n := rank.toNat - 48) (by omega) (by omega), ok_bind,
        u8_ok (n := 56 - rank.toNat) (by rw [hdigit]; omega) (by omega), ok_bind,
        u8_ok (n := file.toNat - 97) (by omega) (by omega)]
      rfl
    · rfl
  · rfl

theorem rank_text : ∀ r < 8, ∀ c < 8, String.ofList [Char.ofNat (97 + c)] ++ toString (8 - r) =
    String.ofList [Char.ofNat (97 + c), Char.ofNat (56 - r)] := by
  decide +kernel

theorem text_ok (hs : s.OnBoard) : text s = .ok s.text := by
  have h1 : s.row.toNat < 8 := hs.1
  have h2 : s.col.toNat < 8 := hs.2
  have hfile : (Nat.toUInt8 (97 + s.col.toNat)).toNat = 97 + s.col.toNat := by simp; omega
  have hrank : (Nat.toUInt8 (8 - s.row.toNat)).toNat = 8 - s.row.toNat := by simp; omega
  unfold text
  rw [u8_ok (n := 97 + s.col.toNat) (by omega) (by omega), ok_bind,
    u8_ok (n := 8 - s.row.toNat) (by omega) (by omega), ok_bind, hfile, hrank,
    rank_text _ h1 _ h2]
  rfl

/-- There is no rank for a square off the board. -/
example : text ⟨9, 0⟩ = .error .overflow := by decide

end LiveChess.Checked
