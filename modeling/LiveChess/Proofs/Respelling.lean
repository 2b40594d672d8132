import Mathlib.Tactic
import LiveChess.Json.Range
import LiveChess.Json.Printer

/-! # One value, spelled in many ways

`Respells j k` says that `k` is `j` with the members of any of its objects in another order, with
members of other names among them, and with null members left out.  `Reads f j a` says that the
reader `f` finds `a` in `j` however `j` is spelled; the lemmas on it follow the readers of strings,
bytes, lists and fields.  What carries them is `exists_fields`: the fields that a reader asks for by
name are those of the object before it was respelled. -/

namespace LiveChess.Json

/-! ### Spellings -/

/-- Members in the same order, each in relation `R` to what it was; null ones may be left out. -/
inductive Members (R : Json → Json → Prop) :
    List (String × Json) → List (String × Json) → Prop
  | nil : Members R [] []
  | keep (name : String) {v w : Json} {ms ns : List (String × Json)} :
      R v w → Members R ms ns → Members R ((name, v) :: ms) ((name, w) :: ns)
  | drop (name : String) {ms ns : List (String × Json)} :
      Members R ms ns → Members R ((name, .null) :: ms) ns

/-- The same value spelled another way. -/
inductive Respells : Json → Json → Prop
  | same (j : Json) : Respells j j
  | arr {items items' : List Json} :
      List.Forall₂ Respells items items' → Respells (.arr items) (.arr items')
  | obj {members kept members' : List (String × Json)} (other : List (String × Json)) :
      Members Respells members kept → (∀ m ∈ other, m.1 ∉ members.map Prod.fst) →
      members'.Perm (kept ++ other) → Respells (.obj members) (.obj members')

theorem Members.refl (members : List (String × Json)) : Members Respells members members := by
  induction members with
  | nil => exact .nil
  | cons m ms ih => exact .keep m.1 (.same m.2) ih

theorem Respells.eq_null {j : Json} (h : Respells j .null) : j = .null := by
  cases h
  rfl

theorem Respells.arr_cases {items : List Json} {j : Json} (h : Respells (.arr items) j) :
    ∃ items', j = .arr items' ∧ List.Forall₂ Respells items items' := by
  cases h with
  | same => exact ⟨items, rfl, List.forall₂_same.2 fun j _ => .same j⟩
  | arr hitems => exact ⟨_, rfl, hitems⟩

theorem Respells.obj_cases {members : List (String × Json)} {j : Json}
    (h : Respells (.obj members) j) :
    ∃ kept other members', j = .obj members' ∧ Members Respells members kept ∧
      (∀ m ∈ other, m.1 ∉ members.map Prod.fst) ∧ members'.Perm (kept ++ other) := by
  cases h with
  | same =>
      refine ⟨members, [], members, rfl, .refl members, ?_, ?_⟩
      · rintro m hm
        cases hm
      · rw [List.append_nil]
  | obj other hkept hother hperm => exact ⟨_, _, _, rfl, hkept, hother, hperm⟩

/-! ### Fields -/

/-- What is found in the place of a member: a spelling of it, or nothing if it is null. -/
def Found (v : Json) (field : Option Json) : Prop :=
  (v = .null ∧ field = none) ∨ ∃ w, field = some w ∧ Respells v w

/-- Members other than the named ones are passed over. -/
theorem filter_name_eq_nil {name : String} {members : List (String × Json)}
    (h : name ∉ members.map Prod.fst) :
    members.filter (fun m => decide (m.1 = name)) = [] := by
  rw [List.filter_eq_nil_iff]
  rintro m hm hname
  exact h (List.mem_map.2 ⟨m, hm, of_decide_eq_true hname⟩)

theorem Members.names_subset {R : Json → Json → Prop} {members kept : List (String × Json)}
    (h : Members R members kept) : kept.map Prod.fst ⊆ members.map Prod.fst := by
  induction h with
  | nil => exact fun _ h => h
  | keep name _ _ ih => exact List.cons_subset_cons name ih
  | drop name _ ih => exact List.subset_cons_of_subset name ih

/-- Of the members that were kept, at most one has the name of a given one, and it spells it. -/
theorem Members.exists_found {members kept : List (String × Json)}
    (h : Members Respells members kept) (hnames : (members.map Prod.fst).Nodup)
    {m : String × Json} (hm : m ∈ members) :
    ∃ field, Found m.2 field ∧
      kept.filter (fun k => decide (k.1 = m.1)) = field.toList.map fun v => (m.1, v) := by
  induction h with
  | nil => cases hm
  | @keep name v w ms ns hvw hms ih =>
      rw [List.map_cons, List.nodup_cons] at hnames
      rcases List.mem_cons.1 hm with rfl | hm
      · have hrest : name ∉ ns.map Prod.fst := fun h => hnames.1 (hms.names_subset h)
        refine ⟨some w, .inr ⟨w, rfl, hvw⟩, ?_⟩
        rw [List.filter_cons_of_pos (by simp), filter_name_eq_nil hrest]
        rfl
      · have hne : name ≠ m.1 := fun h => hnames.1 (h ▸ List.mem_map.2 ⟨m, hm, rfl⟩)
        rw [List.filter_cons_of_neg (by simpa using hne)]
        exact ih hnames.2 hm
  | @drop name ms ns hms ih =>
      rw [List.map_cons, List.nodup_cons] at hnames
      rcases List.mem_cons.1 hm with rfl | hm
      · have hrest : name ∉ ns.map Prod.fst := fun h => hnames.1 (hms.names_subset h)
        exact ⟨none, .inl ⟨rfl, rfl⟩, filter_name_eq_nil hrest⟩
      · exact ih hnames.2 hm

/-- A field is found under its name among the members of a spelling. -/
theorem member?_found {members kept other members' : List (String × Json)}
    (hkept : Members Respells members kept) (hnames : (members.map Prod.fst).Nodup)
    (hother : ∀ m ∈ other, m.1 ∉ members.map Prod.fst) (hperm : members'.Perm (kept ++ other))
    {m : String × Json} (hm : m ∈ members) :
    ∃ field, member? m.1 members' = some field ∧ Found m.2 field := by
  obtain ⟨field, hfound, hfilter⟩ := hkept.exists_found hnames hm
  have hpassed : m.1 ∉ other.map Prod.fst := by
    intro h
    obtain ⟨m', hm', heq⟩ := List.mem_map.1 h
    exact hother m' hm' (heq ▸ List.mem_map_of_mem hm)
  have hall : (members'.filter fun k => decide (k.1 = m.1)).Perm
      (field.toList.map fun v => (m.1, v)) := by
    rw [← hfilter, ← List.append_nil (kept.filter _), ← filter_name_eq_nil hpassed,
      ← List.filter_append]
    exact hperm.filter _
  refine ⟨field, ?_, hfound⟩
  unfold member?
  cases field with
  | none => rw [List.Perm.eq_nil hall]
  | some v => rw [List.perm_singleton.1 hall]

/-- The fields that a reader asks for by name are those of the object before it was respelled. -/
theorem exists_fields (names : List String) {members : List (String × Json)} {j : Json}
    (h : Respells (.obj members) j) (hnames : members.map Prod.fst = names) (hnodup : names.Nodup) :
    ∃ fields, j.fields? names = some fields ∧
      List.Forall₂ (fun m field => Found m.2 field) members fields := by
  subst hnames
  obtain ⟨kept, other, members', rfl, hkept, hother, hperm⟩ := h.obj_cases
  have hfound := fun m => member?_found hkept hnodup hother hperm (m := m)
  have hsome (ms : List (String × Json)) (hms : ms ⊆ members) :
      ∃ fields, (ms.map Prod.fst).mapM (fun name => member? name members') = some fields ∧
        List.Forall₂ (fun m field => Found m.2 field) ms fields := by
    induction ms with
    | nil => exact ⟨[], rfl, .nil⟩
    | cons m ms ih =>
        obtain ⟨field, hfield, hm⟩ := hfound m (hms List.mem_cons_self)
        obtain ⟨fields, hfields, hrest⟩ := ih fun x hx => hms (List.mem_cons_of_mem m hx)
        refine ⟨field :: fields, ?_, .cons hm hrest⟩
        rw [List.map_cons, List.mapM_cons, hfield, hfields]
        rfl
  exact hsome members fun _ h => h

/-! ### Readers -/

/-- The reader finds `a` in every spelling of the value. -/
def Reads {α : Type} (f : Json → Option α) (v : Json) (a : α) : Prop :=
  ∀ w, Respells v w → f w = some a

variable {α : Type} {f : Json → Option α} {v : Json} {a : α}

theorem reads_string (s : String) : Reads asString? (.str s) s := by
  rintro w h
  cases h
  rfl

theorem reads_choice {g : String → Option α} {s : String} (h : g s = some a) :
    Reads (asChoice? g) (.str s) a := by
  rintro w hw
  cases hw
  exact h

theorem reads_byte (b : UInt8) : Reads asByte? (.ofNat b.toNat) b := by
  rintro w hw
  cases hw
  have hlt : b.toNat < 256 := b.toNat_lt
  simp [asByte?, asNat?, ofNat, Number.toNat?, hlt]

theorem reads_list {enc : α → Json} (h : ∀ a, Reads f (enc a) a) (as : List α) :
    Reads (asList? f) (.arr (as.map enc)) as := by
  rintro w hw
  obtain ⟨items, rfl, hitems⟩ := hw.arr_cases
  clear hw
  show items.mapM f = some as
  induction as generalizing items with
  | nil =>
      cases hitems
      rfl
  | cons a as ih =>
      cases hitems with
      | cons hitem hrest =>
          rw [List.mapM_cons, h a _ hitem, ih _ hrest]
          rfl

theorem required?_found {field : Option Json} (hfound : Found v field) (hv : v ≠ .null)
    (h : Reads f v a) : required? f field = some a := by
  rcases hfound with ⟨hnull, -⟩ | ⟨w, rfl, hw⟩
  · exact absurd hnull hv
  · exact h w hw

/-- A field that is null is read as empty, and so is one that was left out. -/
theorem optional?_found {enc : α → Json} (h : ∀ a, Reads f (enc a) a) (hnull : ∀ a, enc a ≠ .null)
    {o : Option α} {field : Option Json} (hfound : Found (ofOption enc o) field) :
    optional? f field = some o := by
  cases o with
  | none =>
      rcases hfound with ⟨-, rfl⟩ | ⟨w, rfl, hw⟩
      · rfl
      · cases hw
        rfl
  | some a =>
      rcases hfound with ⟨heq, -⟩ | ⟨w, rfl, hw⟩
      · exact absurd heq (hnull a)
      · have hw' : w ≠ .null := by
          rintro rfl
          exact hnull a hw.eq_null
        cases w with
        | null => exact absurd rfl hw'
        | _ => simp only [optional?, h a _ hw, Option.map_some]

end LiveChess.Json
