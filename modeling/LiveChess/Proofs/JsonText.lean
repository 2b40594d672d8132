import Mathlib.Tactic
import LiveChess.Json.Printer
import LiveChess.Json.Reader

/-! # Reading what was written

The text of a JSON value reads as that value (`parse_text`), if no part of it is unreadable and its
numbers are in range.  Every lemma on a part of a value lets any text follow, which the reader hands
on untouched; only after digits and numbers must that text not go on with more of the same (`NoDigit`,
`Stops`).  The steps that a value takes to read are no more than the characters it is written with,
which is what the induction over values counts. -/

namespace LiveChess.Json

/-! ### Strings -/

theorem hexUnit?_hexDigit {m n : Nat} (hm : m < 16) (hn : n < 16) :
    hexUnit? '0' '0' (Text.hexDigit m) (Text.hexDigit n) = some (16 * m + n) := by
  have h0 : Text.hexValue? '0' = some 0 := rfl
  simp only [hexUnit?, h0, Text.hexValue?_hexDigit hm, Text.hexValue?_hexDigit hn]
  congr 1
  omega

/-- A letter after a backslash, other than the one that announces digits. -/
theorem readChars_letter {k e : Char} (h : escaped? k = some e) (rest : List Char) :
    readChars ('\\' :: k :: rest) = prepend (some e) (readChars rest) := by
  have hu : k ≠ 'u' := by
    rintro rfl
    cases h
  rw [readChars.eq_def]
  split
  · simp_all
  · simp_all
  · simp_all
  · simp_all
  · rename_i hletter heq
    obtain ⟨rfl, rfl⟩ := List.cons.inj heq
    exact absurd rfl (hletter _ _ rfl)

/-- A control character by its number. -/
theorem readChars_number {c : Char} (h : c.toNat < 32) (rest : List Char) :
    readChars ('\\' :: 'u' :: '0' :: '0' :: Text.hexDigit (c.toNat / 16) ::
      Text.hexDigit (c.toNat % 16) :: rest) = prepend (some c) (readChars rest) := by
  have hunit := hexUnit?_hexDigit (m := c.toNat / 16) (n := c.toNat % 16) (by omega) (by omega)
  rw [show 16 * (c.toNat / 16) + c.toNat % 16 = c.toNat by omega] at hunit
  have hlow : isLowHalf c.toNat = false := by
    unfold isLowHalf
    rw [decide_eq_false_iff_not]
    omega
  have hhigh : isHighHalf c.toNat = false := by
    unfold isHighHalf
    rw [decide_eq_false_iff_not]
    omega
  rw [readChars.eq_def]
  simp only [hunit, hlow, hhigh, Bool.false_eq_true, if_false, Char.ofNat_toNat]

/-- A character that needs no escape. -/
theorem readChars_plain {c : Char} (hq : c ≠ '"') (hb : c ≠ '\\') (h : 32 ≤ c.toNat)
    (rest : List Char) : readChars (c :: rest) = prepend (some c) (readChars rest) := by
  rw [readChars.eq_def]
  split
  · simp_all
  · simp_all
  · simp_all
  · simp_all
  · simp_all

/-- A character reads as itself, however it stands in a string. -/
theorem readChars_escape (c : Char) (rest : List Char) :
    readChars (escape c ++ rest) = prepend (some c) (readChars rest) := by
  have hofNat {n : Nat} (h : c.toNat = n) : Char.ofNat n = c := h ▸ Char.ofNat_toNat c
  unfold escape
  split_ifs with h1 h2 h3 h4 h5 h6 h7 h8
  · exact readChars_letter (by rw [h1]; rfl) rest
  · exact readChars_letter (by rw [h2]; rfl) rest
  · exact readChars_letter (by rw [h3]; rfl) rest
  · exact readChars_letter (by rw [h4]; rfl) rest
  · exact readChars_letter (by rw [h5]; rfl) rest
  · exact readChars_letter (by rw [← hofNat h6]; rfl) rest
  · exact readChars_letter (by rw [← hofNat h7]; rfl) rest
  · exact readChars_number h8 rest
  · exact readChars_plain h1 h2 (by omega) rest

theorem readChars_chars (cs rest : List Char) :
    readChars (cs.flatMap escape ++ '"' :: rest) = some (cs.map some, rest) := by
  induction cs with
  | nil =>
      show readChars ('"' :: rest) = _
      rw [readChars.eq_def]
      rfl
  | cons c cs ih =>
      rw [List.flatMap_cons, List.append_assoc, readChars_escape, ih]
      rfl

theorem readString_printString (s : String) (rest : List Char) :
    readString (s.toList.flatMap escape ++ '"' :: rest) = some (some s, rest) := by
  have hall (cs : List Char) : (cs.map some).mapM id = some cs := by
    induction cs with
    | nil => rfl
    | cons c cs ih => simp [ih]
  unfold readString
  rw [readChars_chars]
  simp only [Option.map_some, hall, String.ofList_toList]

/-! ### Digits -/

/-- The text does not go on with a digit. -/
def NoDigit (cs : List Char) : Prop := ∀ c ∈ cs.head?, digit? c = none

theorem noDigit_of_letter {c : Char} (h : digit? c = none) (cs : List Char) : NoDigit (c :: cs) := by
  rintro d hd
  cases hd
  exact h

theorem digit?_of_isDigit {c : Char} (h : c.isDigit = true) :
    ∃ d, digit? c = some d ∧ d.val = c.toNat - '0'.toNat := by
  have hc : '0' ≤ c ∧ c ≤ '9' := by
    simpa [Char.isDigit, Char.le_def] using h
  exact ⟨_, dif_pos hc, rfl⟩

theorem digit?_ofNat (d : Fin 10) : digit? (Char.ofNat (48 + d.val)) = some d := by
  revert d
  decide

theorem readDigits_of_noDigit {cs : List Char} (h : NoDigit cs) : readDigits cs = ([], cs) := by
  cases cs with
  | nil => rfl
  | cons c cs =>
      rw [readDigits, h c rfl]

/-- Digits are read up to where they end. -/
theorem readDigits_append {cs rest : List Char} (hcs : ∀ c ∈ cs, c.isDigit = true)
    (hrest : NoDigit rest) (acc : Nat) : ∃ ds, readDigits (cs ++ rest) = (ds, rest) ∧
      ds.foldl (fun acc d => 10 * acc + d.val) acc = Nat.ofDigitChars 10 cs acc := by
  induction cs generalizing acc with
  | nil => exact ⟨[], readDigits_of_noDigit hrest, rfl⟩
  | cons c cs ih =>
      obtain ⟨d, hd, hval⟩ := digit?_of_isDigit (hcs c List.mem_cons_self)
      obtain ⟨ds, hds, hfold⟩ := ih (fun x hx => hcs x (List.mem_cons_of_mem c hx))
        (10 * acc + (c.toNat - '0'.toNat))
      refine ⟨d :: ds, ?_, ?_⟩
      · rw [List.cons_append, readDigits, hd, hds]
      · rw [List.foldl_cons, hval, hfold, Nat.ofDigitChars_cons]

/-- What a number is written with begins with a digit. -/
theorem exists_toDigits (n : Nat) :
    ∃ c cs, Nat.toDigits 10 n = c :: cs ∧ c.isDigit = true := by
  obtain ⟨c, cs, hc⟩ := List.exists_cons_of_ne_nil (Nat.toDigits_ne_nil (b := 10) (n := n))
  exact ⟨c, cs, hc,
    Nat.isDigit_of_mem_toDigits (by decide) (by decide) (hc ▸ List.mem_cons_self)⟩

theorem readDigits_toDigits (n : Nat) {rest : List Char} (hrest : NoDigit rest) :
    ∃ d ds, readDigits (Nat.toDigits 10 n ++ rest) = (d :: ds, rest) ∧
      natOfDigits (d :: ds) = n := by
  have hdigits : ∀ c ∈ Nat.toDigits 10 n, c.isDigit = true :=
    fun c hc => Nat.isDigit_of_mem_toDigits (by decide) (by decide) hc
  obtain ⟨ds, hds, hfold⟩ := readDigits_append hdigits hrest 0
  rw [Nat.ofDigitChars_toDigits (by decide) (by decide)] at hfold
  cases ds with
  | cons d ds => exact ⟨d, ds, hds, hfold⟩
  | nil =>
      -- the first character is a digit, so it was read
      obtain ⟨c, cs, hc, hdigit⟩ := exists_toDigits n
      obtain ⟨d, hd, -⟩ := digit?_of_isDigit hdigit
      rw [hc, List.cons_append, readDigits, hd] at hds
      cases hds

/-- Nothing but zero begins with a zero. -/
theorem head?_toDigits_ne_zero {n : Nat} (hn : n ≠ 0) : (Nat.toDigits 10 n).head? ≠ some '0' := by
  induction n using Nat.strongRecOn with
  | ind n ih =>
      by_cases hlt : n < 10
      · rw [Nat.toDigits_of_lt_base hlt]
        interval_cases n <;> first | exact absurd rfl hn | decide
      · rw [Nat.toDigits_of_base_le (by decide) (by omega), List.head?_append]
        have hrec := ih (n / 10) (by omega) (by omega)
        obtain ⟨c, cs, hc, -⟩ := exists_toDigits (n / 10)
        rw [hc] at hrec ⊢
        exact hrec

/-- The digits after a point. -/
theorem readDigits_fraction (ds : List (Fin 10)) {rest : List Char} (hrest : NoDigit rest) :
    readDigits (ds.map (fun d => Char.ofNat (48 + d.val)) ++ rest) = (ds, rest) := by
  induction ds with
  | nil => exact readDigits_of_noDigit hrest
  | cons d ds ih => rw [List.map_cons, List.cons_append, readDigits, digit?_ofNat, ih]

/-! ### Numbers -/

/-- The text does not go on with more of a number. -/
def Stops (cs : List Char) : Prop :=
  ∀ c ∈ cs.head?, digit? c = none ∧ c ≠ '.' ∧ c ≠ 'e' ∧ c ≠ 'E'

theorem Stops.noDigit {cs : List Char} (h : Stops cs) : NoDigit cs := fun c hc => (h c hc).1

theorem stops_nil : Stops [] := by
  rintro c hc
  cases hc

theorem stops_of_mem {c : Char} (h : c ∈ [',', ']', '}']) (cs : List Char) :
    Stops (c :: cs) := by
  rintro d hd
  cases hd
  fin_cases h <;> decide

theorem readWhole_toDigits (n : Nat) {rest : List Char} (hrest : NoDigit rest) :
    readWhole (Nat.toDigits 10 n ++ rest) = some (n, rest) := by
  by_cases hn : n = 0
  · subst hn
    rfl
  · obtain ⟨d, ds, hds, hval⟩ := readDigits_toDigits n hrest
    have hhead := head?_toDigits_ne_zero hn
    obtain ⟨c, cs, hc, -⟩ := exists_toDigits n
    rw [hc] at hds hhead ⊢
    unfold readWhole
    split
    · rename_i heq
      cases heq
      exact absurd rfl hhead
    · rw [hds]
      simp only [hval]

/-- The point of a number and the digits after it. -/
def printFraction (ds : List (Fin 10)) : List Char :=
  if ds = [] then [] else '.' :: ds.map fun d => Char.ofNat (48 + d.val)

theorem noDigit_printFraction (ds : List (Fin 10)) {rest : List Char} (hrest : NoDigit rest) :
    NoDigit (printFraction ds ++ rest) := by
  cases ds with
  | nil => exact hrest
  | cons d ds => exact noDigit_of_letter (by decide) _

theorem readFraction_printFraction (ds : List (Fin 10)) {rest : List Char} (hrest : NoDigit rest)
    (hpoint : '.' ∉ rest.head?) : readFraction (printFraction ds ++ rest) = some (ds, rest) := by
  cases ds with
  | nil =>
      cases rest with
      | nil => rfl
      | cons c cs =>
          have hc : c ≠ '.' := fun h => hpoint (congrArg some h)
          simp [printFraction, readFraction, hc]
  | cons d ds =>
      have hds := readDigits_fraction (d :: ds) hrest
      rw [printFraction, if_neg (List.cons_ne_nil d ds), List.cons_append, readFraction, hds]

theorem readExponent_of_stops {rest : List Char} (hrest : Stops rest) :
    readExponent rest = some (none, rest) := by
  cases rest with
  | nil => rfl
  | cons c cs =>
      obtain ⟨-, -, he, hE⟩ := hrest c rfl
      rw [readExponent, if_neg (by tauto)]

theorem readSign_toDigits (n : Nat) (rest : List Char) :
    readSign (Nat.toDigits 10 n ++ rest) = (false, Nat.toDigits 10 n ++ rest) := by
  obtain ⟨c, cs, hc, hdigit⟩ := exists_toDigits n
  rw [hc, List.cons_append]
  unfold readSign
  split
  · rename_i heq
    cases heq
    exact absurd hdigit (by decide)
  · rename_i heq
    cases heq
    exact absurd hdigit (by decide)
  · rfl

theorem readExponent_print (e : Int) {rest : List Char} (hrest : Stops rest) :
    readExponent (printExponent e ++ rest) = some (some e, rest) := by
  cases e with
  | ofNat n =>
      obtain ⟨d, ds, hds, hval⟩ := readDigits_toDigits n hrest.noDigit
      simp only [printExponent, List.cons_append, readExponent, true_or, if_true,
        readSign_toDigits, hds, hval]
      rfl
  | negSucc n =>
      obtain ⟨d, ds, hds, hval⟩ := readDigits_toDigits (n + 1) hrest.noDigit
      simp only [printExponent, List.cons_append, readExponent, true_or, if_true, readSign,
        hds, hval]
      rfl

/-- The power of ten with which a number ends. -/
def printPower : Option Int → List Char
  | none => []
  | some e => printExponent e

theorem head?_printPower (e : Option Int) {rest : List Char} (hrest : Stops rest) :
    ∀ c ∈ (printPower e ++ rest).head?, digit? c = none ∧ c ≠ '.' := by
  rintro c hc
  cases e with
  | none => exact ⟨(hrest c hc).1, (hrest c hc).2.1⟩
  | some e =>
      have he : c = 'e' := by
        cases e <;> exact (Option.some.inj hc).symm
      subst he
      decide

theorem readExponent_printPower (e : Option Int) {rest : List Char} (hrest : Stops rest) :
    readExponent (printPower e ++ rest) = some (e, rest) := by
  cases e with
  | none => exact readExponent_of_stops hrest
  | some e => exact readExponent_print e hrest

/-- A number reads as itself. -/
theorem readNumber_printNumber (n : Number) {rest : List Char} (hrest : Stops rest) :
    readNumber (printNumber n ++ rest) = some (n, rest) := by
  obtain ⟨negative, whole, fraction, exponent⟩ := n
  have hhead := head?_printPower exponent hrest
  have hpower := readExponent_printPower exponent hrest
  have hdigit : NoDigit (printPower exponent ++ rest) := fun c hc => (hhead c hc).1
  have hfraction := readFraction_printFraction fraction hdigit fun hc => (hhead '.' hc).2 rfl
  have hwhole := readWhole_toDigits whole (noDigit_printFraction fraction hdigit)
  have htext : printNumber ⟨negative, whole, fraction, exponent⟩ ++ rest =
      (if negative then ['-'] else []) ++
        (Nat.toDigits 10 whole ++ (printFraction fraction ++ (printPower exponent ++ rest))) := by
    simp only [printNumber, List.append_assoc]
    rfl
  rw [htext]
  unfold readNumber
  cases negative with
  | true => simp only [if_true, List.cons_append, List.nil_append, hwhole, hfraction, hpower]
  | false =>
      -- the first digit is no minus sign
      obtain ⟨c, cs, hc, hdigit⟩ := exists_toDigits whole
      have hminus : c ≠ '-' := by
        rintro rfl
        exact absurd hdigit (by decide)
      rw [hc, List.cons_append] at hwhole ⊢
      simp [hminus, hwhole, hfraction, hpower]

/-! ### Values -/

mutual

/-- No part of the value is unreadable, and its numbers are in range. -/
def isWritable : Json → Bool
  | .num n => n.inRange
  | .unreadable => false
  | .arr items => areWritable items
  | .obj members => membersWritable members
  | _ => true

/-- All items are writable. -/
def areWritable : List Json → Bool
  | [] => true
  | j :: js => isWritable j && areWritable js

/-- All members are writable. -/
def membersWritable : List (String × Json) → Bool
  | [] => true
  | (_, j) :: ms => isWritable j && membersWritable ms

end

theorem areWritable_map {α : Type} {enc : α → Json} (h : ∀ a, (enc a).isWritable = true)
    (as : List α) : areWritable (as.map enc) = true := by
  induction as with
  | nil => rfl
  | cons a as ih => rw [List.map_cons, areWritable, h a, ih, Bool.true_and]

theorem isWritable_ofNat {n : Nat} (h : n < Number.significandLimit) :
    (ofNat n).isWritable = true := by
  have hscaled : Number.scaled ⟨false, n, [], none⟩ = (n, 0) := by
    rw [Number.scaled, Number.leading, if_pos h]
    rfl
  simp only [ofNat, isWritable, Number.inRange, hscaled, le_refl, or_true, if_true]

theorem skipBlanks_cons {c : Char} (h : isBlank c = false) (cs : List Char) :
    skipBlanks (c :: cs) = c :: cs := by
  simp [skipBlanks, h]

/-- A number begins with its sign or with a digit. -/
theorem exists_printNumber (n : Number) :
    ∃ c cs, printNumber n = c :: cs ∧ (c = '-' ∨ c.isDigit = true) := by
  unfold printNumber
  cases n.negative with
  | true => exact ⟨'-', _, rfl, .inl rfl⟩
  | false =>
      obtain ⟨c, cs, hc, hdigit⟩ := exists_toDigits n.whole
      rw [hc]
      exact ⟨c, _, rfl, .inr hdigit⟩

theorem isBlank_of_number {c : Char} (h : c = '-' ∨ c.isDigit = true) : isBlank c = false := by
  rcases h with rfl | h
  · rfl
  · unfold isBlank
    simp only [Bool.or_eq_false_iff, decide_eq_false_iff_not]
    refine ⟨⟨⟨?_, ?_⟩, ?_⟩, ?_⟩ <;>
    · rintro rfl
      exact absurd h (by decide)

/-- The text of a value begins with neither a blank nor the end of an array. -/
theorem exists_print (j : Json) :
    ∃ c cs, print j = c :: cs ∧ isBlank c = false ∧ c ≠ ']' := by
  cases j with
  | num n =>
      obtain ⟨c, cs, hc, h⟩ := exists_printNumber n
      refine ⟨c, cs, hc, isBlank_of_number h, ?_⟩
      rintro rfl
      revert h
      decide
  | bool b => cases b <;> exact ⟨_, _, rfl, by decide⟩
  | null => exact ⟨_, _, rfl, by decide⟩
  | str s => exact ⟨_, _, rfl, by decide⟩
  | arr items => exact ⟨_, _, rfl, by decide⟩
  | obj members => exact ⟨_, _, rfl, by decide⟩
  | unreadable => exact ⟨_, _, rfl, by decide⟩

theorem readValue_number (m : Number) (hm : m.inRange = true) (n : Nat) {rest : List Char}
    (hrest : Stops rest) : readValue (n + 1) (printNumber m ++ rest) = some (.num m, rest) := by
  obtain ⟨c, cs, hc, h⟩ := exists_printNumber m
  have hread := readNumber_printNumber m hrest
  rw [hc, List.cons_append] at hread ⊢
  rw [readValue, skipBlanks_cons (isBlank_of_number h)]
  have hother {d : Char} (hd : ¬(d = '-' ∨ d.isDigit = true)) : c ≠ d := by
    rintro rfl
    exact hd h
  simp [hother (d := 'n') (by decide), hother (d := 't') (by decide),
    hother (d := 'f') (by decide), hother (d := '"') (by decide), hother (d := '[') (by decide),
    hother (d := '{') (by decide), hread, hm]

theorem readValue_string (s : String) (n : Nat) (rest : List Char) :
    readValue (n + 1) (printString s ++ rest) = some (.str s, rest) := by
  have hread := readString_printString s rest
  rw [printString, List.cons_append, List.append_assoc, List.singleton_append, readValue,
    skipBlanks_cons (by decide)]
  simp only [hread]

/-- The text of items begins with neither a blank nor the end of an array. -/
theorem exists_printItems (j : Json) (js : List Json) :
    ∃ c cs, printItems (j :: js) = c :: cs ∧ isBlank c = false ∧ c ≠ ']' := by
  obtain ⟨c, cs, hc, h⟩ := exists_print j
  cases js with
  | nil => exact ⟨c, cs, hc, h⟩
  | cons k js => exact ⟨c, _, by rw [printItems, hc]; rfl, h⟩

/-- The text of members begins with a quote. -/
theorem exists_printMembers (m : String × Json) (ms : List (String × Json)) :
    ∃ cs, printMembers (m :: ms) = '"' :: cs := by
  cases ms with
  | nil => exact ⟨_, rfl⟩
  | cons m' ms => exact ⟨_, rfl⟩

theorem ofMembers_some (members : List (String × Json)) :
    ofMembers (members.map fun m => (some m.1, m.2)) = .obj members := by
  have hall : (members.map fun m => (some m.1, m.2)).mapM
      (fun m : Option String × Json => m.1.map fun s => (s, m.2)) = some members := by
    induction members with
    | nil => rfl
    | cons m ms ih => simp_all
  rw [ofMembers, hall]

mutual

/-- A value reads as itself. -/
theorem readValue_print (j : Json) (hj : j.isWritable = true) {n : Nat}
    (hn : (print j).length ≤ n) {rest : List Char} (hrest : Stops rest) :
    readValue n (print j ++ rest) = some (j, rest) := by
  obtain ⟨n, rfl⟩ : ∃ m, n = m + 1 := by
    obtain ⟨c, cs, hc, -⟩ := exists_print j
    rw [hc, List.length_cons] at hn
    exact ⟨n - 1, by omega⟩
  match j with
  | .null => simp [print, readValue, skipBlanks_cons (c := 'n') rfl]
  | .bool true => simp [print, readValue, skipBlanks_cons (c := 't') rfl]
  | .bool false => simp [print, readValue, skipBlanks_cons (c := 'f') rfl]
  | .num m => exact readValue_number m hj n hrest
  | .str s => exact readValue_string s n rest
  | .arr [] => simp [print, printItems, readValue, skipBlanks_cons (c := '[') rfl,
      skipBlanks_cons (c := ']') rfl]
  | .arr (j :: js) =>
      rw [print, List.length_cons, List.length_append] at hn
      have hitems := readItems_print (j :: js) hj (List.cons_ne_nil _ _) (n := n)
        (by rw [List.length_singleton] at hn; omega) rest
      obtain ⟨c, cs, hc, hblank, hend⟩ := exists_printItems j js
      rw [hc, List.cons_append] at hitems
      rw [print, hc]
      simp only [List.cons_append, List.append_assoc]
      rw [readValue, skipBlanks_cons (by decide)]
      simp [skipBlanks_cons hblank, hend, hitems]
  | .obj [] => simp [print, printMembers, readValue, skipBlanks_cons (c := '{') rfl,
      skipBlanks_cons (c := '}') rfl]
  | .obj (m :: ms) =>
      rw [print, List.length_cons, List.length_append] at hn
      have hmembers := readMembers_print (m :: ms) hj (List.cons_ne_nil _ _) (n := n)
        (by rw [List.length_singleton] at hn; omega) rest
      have hall := ofMembers_some (m :: ms)
      obtain ⟨cs, hc⟩ := exists_printMembers m ms
      rw [hc, List.cons_append] at hmembers
      rw [List.map_cons] at hall
      rw [print, hc]
      simp only [List.cons_append, List.append_assoc]
      rw [readValue, skipBlanks_cons (by decide)]
      simp [skipBlanks_cons (c := '"') rfl, hmembers, hall]
  | .unreadable => cases hj

/-- Items read as themselves. -/
theorem readItems_print (items : List Json) (hitems : areWritable items = true)
    (hne : items ≠ []) {n : Nat} (hn : (printItems items).length + 1 ≤ n) (rest : List Char) :
    readItems n (printItems items ++ ']' :: rest) = some (items, rest) := by
  obtain ⟨n, rfl⟩ : ∃ m, n = m + 1 := ⟨n - 1, by omega⟩
  match items with
  | [j] =>
      simp only [areWritable, Bool.and_true] at hitems
      have hj := readValue_print j hitems (n := n) (by rw [printItems] at hn; omega)
        (stops_of_mem (c := ']') (by decide) rest)
      rw [printItems, readItems, hj]
      simp [skipBlanks_cons (c := ']') rfl]
  | j :: k :: js =>
      rw [areWritable, Bool.and_eq_true] at hitems
      rw [printItems, List.length_append, List.length_cons] at hn
      have hj := readValue_print j hitems.1 (n := n) (by omega)
        (stops_of_mem (c := ',') (by decide) (printItems (k :: js) ++ ']' :: rest))
      have hjs := readItems_print (k :: js) hitems.2 (List.cons_ne_nil _ _) (n := n) (by omega) rest
      rw [printItems, List.append_assoc, List.cons_append, readItems, hj]
      simp [skipBlanks_cons (c := ',') rfl, hjs]

/-- Members read as themselves. -/
theorem readMembers_print (members : List (String × Json))
    (hmembers : membersWritable members = true) (hne : members ≠ []) {n : Nat}
    (hn : (printMembers members).length + 1 ≤ n) (rest : List Char) :
    readMembers n (printMembers members ++ '}' :: rest) =
      some (members.map fun m => (some m.1, m.2), rest) := by
  obtain ⟨n, rfl⟩ : ∃ m, n = m + 1 := ⟨n - 1, by omega⟩
  match members with
  | [(s, j)] =>
      simp only [membersWritable, Bool.and_true] at hmembers
      rw [printMembers, List.length_append, List.length_cons] at hn
      have hj := readValue_print j hmembers (n := n) (by omega)
        (stops_of_mem (c := '}') (by decide) rest)
      have hname := readString_printString s (':' :: (print j ++ '}' :: rest))
      rw [printMembers, printString]
      simp only [List.cons_append, List.append_assoc, List.nil_append]
      rw [readMembers, skipBlanks_cons (by decide)]
      simp [hname, skipBlanks_cons (c := ':') rfl, hj, skipBlanks_cons (c := '}') rfl]
  | (s, j) :: m :: ms =>
      rw [membersWritable, Bool.and_eq_true] at hmembers
      rw [printMembers, List.length_append, List.length_cons, List.length_append,
        List.length_cons] at hn
      have hj := readValue_print j hmembers.1 (n := n) (by omega)
        (stops_of_mem (c := ',') (by decide) (printMembers (m :: ms) ++ '}' :: rest))
      have hms := readMembers_print (m :: ms) hmembers.2 (List.cons_ne_nil _ _) (n := n)
        (by omega) rest
      have hname := readString_printString s
        (':' :: (print j ++ ',' :: (printMembers (m :: ms) ++ '}' :: rest)))
      rw [printMembers, printString]
      simp only [List.cons_append, List.append_assoc, List.nil_append]
      rw [readMembers, skipBlanks_cons (by decide)]
      simp [hname, skipBlanks_cons (c := ':') rfl, hj, skipBlanks_cons (c := ',') rfl, hms]

end

/-- A text that was written reads as the value it was written for. -/
theorem parse_text {j : Json} (hj : j.isWritable = true) : parse j.text = some j := by
  have hread := readValue_print j hj (n := 2 * (print j).length + 1) (by omega) stops_nil
  rw [List.append_nil] at hread
  unfold parse text
  rw [String.toList_ofList]
  simp only [hread]
  rfl

end LiveChess.Json
