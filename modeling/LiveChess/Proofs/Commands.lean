import LiveChess.Proofs.RecordText
import LiveChess.Wire.Command

/-! # The texts of commands

A command is a list of named values (`Command.Named`): its type, the match and one or two squares.
It is written as an object that has each of them once, whatever else it has and in whatever order,
or as the array of the values alone (`Command.Written`).  Reading a command finds the type first and
then asks for the fields of that type; `ofJson?_eq_some_iff` says that it accepts what is written
this way and nothing else.  It follows the readers of fields: `member?_eq_some_iff` for one name,
`fields?_obj_iff` and `fields?_arr_iff` for a list of them. -/

namespace LiveChess

namespace Json

variable {name : String} {names : List String} {v : Json} {values items : List Json}
  {members members' other : List (String × Json)}

/-- Exactly one of the members has the name, and this is its value. -/
structure Once (members : List (String × Json)) (name : String) (v : Json) : Prop where
  mem : (name, v) ∈ members
  count : (members.map Prod.fst).count name = 1

theorem length_filter_name (name : String) (members : List (String × Json)) :
    (members.filter fun m => decide (m.1 = name)).length = (members.map Prod.fst).count name := by
  rw [List.count_eq_countP, List.countP_map, List.countP_eq_length_filter]
  rfl

theorem member?_eq_some_iff : member? name members = some (some v) ↔ Once members name v := by
  have hlength := length_filter_name name members
  have hmem : (name, v) ∈ members ↔ (name, v) ∈ members.filter fun m => decide (m.1 = name) := by
    simp
  unfold member?
  constructor
  · intro h
    split at h
    · cases h
    · rename_i m hm
      cases h
      have hname : m.1 = name := by
        have : m ∈ members.filter fun m => decide (m.1 = name) := by rw [hm]; simp
        exact of_decide_eq_true (List.mem_filter.mp this).2
      rw [hm] at hmem hlength
      exact ⟨hmem.mpr (by simp [← hname]), hlength.symm⟩
    · cases h
  · rintro ⟨hin, hcount⟩
    rw [hcount, List.length_eq_one_iff] at hlength
    obtain ⟨m, hm⟩ := hlength
    rw [hm] at hmem ⊢
    obtain rfl := List.mem_singleton.mp (hmem.mp hin)
    rfl

/-- The fields of an object, each of them there once. -/
theorem fields?_obj_iff : (obj members).fields? names = some (values.map some) ↔
    List.Forall₂ (Once members) names values := by
  show (names.mapM fun name => member? name members) = _ ↔ _
  induction names generalizing values with
  | nil => cases values <;> simp
  | cons name names ih =>
      rw [List.mapM_cons]
      cases values with
      | nil =>
          simp only [List.map_nil, List.forall₂_nil_right_iff, reduceCtorEq, iff_false]
          intro h
          obtain ⟨field, -, h⟩ := Option.bind_eq_some_iff.mp h
          obtain ⟨fields, -, h⟩ := Option.bind_eq_some_iff.mp h
          cases h
      | cons v values =>
          rw [List.forall₂_cons, ← ih, ← member?_eq_some_iff, List.map_cons]
          constructor
          · intro h
            obtain ⟨field, hfield, h⟩ := Option.bind_eq_some_iff.mp h
            obtain ⟨fields, hfields, h⟩ := Option.bind_eq_some_iff.mp h
            cases h
            exact ⟨hfield, hfields⟩
          · rintro ⟨hfield, hfields⟩
            rw [hfield, hfields]
            rfl

/-- The fields of an array, which are all its items. -/
theorem fields?_arr_iff : (arr items).fields? names = some (values.map some) ↔
    items = values ∧ values.length = names.length := by
  have hinj : Function.Injective (List.map (some : Json → Option Json)) :=
    List.map_injective_iff.mpr (Option.some_injective Json)
  show (if items.length = names.length then some (items.map some) else none) = _ ↔ _
  split_ifs with h
  · rw [Option.some.injEq, hinj.eq_iff]
    constructor
    · rintro rfl
      exact ⟨rfl, h⟩
    · exact And.left
  · simp only [false_iff, not_and]
    rintro rfl
    exact h

theorem asString?_eq_some_iff {s : String} : v.asString? = some s ↔ v = .str s := by
  cases v <;> simp [asString?]

theorem required?_eq_some_iff {α : Type} {f : Json → Option α} {field : Option Json} {a : α} :
    required? f field = some a ↔ ∃ v, field = some v ∧ f v = some a :=
  Option.bind_eq_some_iff

/-- Of members in another order and with members of other names among them, one is found as
before. -/
theorem Once.of_perm (h : Once members name v) (hother : name ∉ other.map Prod.fst)
    (hperm : members'.Perm (members ++ other)) : Once members' name v := by
  refine ⟨hperm.mem_iff.mpr (List.mem_append_left other h.mem), ?_⟩
  rw [(hperm.map Prod.fst).count_eq, List.map_append, List.count_append, h.count,
    List.count_eq_zero_of_not_mem hother]

/-- The text of a value is read as the value, if no number in it is too large and it is not nested
too deep. -/
theorem read_text {j : Json} (hwritable : j.isWritable = true) (hreadable : j.isReadable = true)
    (hdepth : j.depth ≤ depthLimit) : read j.text = some j := by
  rw [read, parse_text hwritable, Option.filter_some, if_pos]
  rw [hreadable, Bool.true_and]
  exact decide_eq_true hdepth

end Json

namespace Command

open Json (Once)

variable {c : Command} {j : Json} {type : String} {values : List (String × Json)}

/-- The named values of a command, the type first; the match may be named in any way that reads as
its name. -/
inductive Named : Command → List (String × Json) → Prop where
  | showMoves (id : MatchId) (text source : String) (reads : MatchId.ofText? text = some id) :
      Named (.showMoves id source)
        [("type", .str "chess-valid-moves"), ("matchId", .str text), ("position", .str source)]
  | move (id : MatchId) (text source target : String) (reads : MatchId.ofText? text = some id) :
      Named (.move id source target)
        [("type", .str "chess-move-piece"), ("matchId", .str text), ("position", .str source),
          ("to", .str target)]

/-- How a command is written: as an object that has each of its named values once, or as the array
of these values. -/
inductive Written : Command → Json → Prop where
  | object {c : Command} {values members : List (String × Json)} (named : Named c values)
      (once : ∀ f ∈ values, Once members f.1 f.2) : Written c (.obj members)
  | array {c : Command} {values : List (String × Json)} (named : Named c values) :
      Written c (.arr (values.map Prod.snd))

/-! ### Reading the fields -/

theorem matchId_ofJson?_eq_some_iff {v : Json} {id : MatchId} :
    MatchId.ofJson? v = some id ↔ ∃ text, v = .str text ∧ MatchId.ofText? text = some id := by
  unfold MatchId.ofJson?
  simp only [Option.bind_eq_some_iff, Json.asString?_eq_some_iff]

/-- The fields of a type are asked for by name and read. -/
theorem ofFields?_eq_some_iff : ofFields? type j = some c ↔
    ∃ values, Named c (("type", .str type) :: values) ∧
      j.fields? (values.map Prod.fst) = some ((values.map Prod.snd).map some) := by
  constructor
  · intro h
    unfold ofFields? at h
    split at h
    · split at h
      · rename_i id source hfields
        obtain ⟨m, hm, h⟩ := Option.bind_eq_some_iff.mp h
        obtain ⟨p, hp, h⟩ := Option.bind_eq_some_iff.mp h
        cases h
        obtain ⟨_, rfl, hm⟩ := Json.required?_eq_some_iff.mp hm
        obtain ⟨_, rfl, hp⟩ := Json.required?_eq_some_iff.mp hp
        obtain ⟨text, rfl, hreads⟩ := matchId_ofJson?_eq_some_iff.mp hm
        obtain rfl := Json.asString?_eq_some_iff.mp hp
        exact ⟨_, .showMoves m text p hreads, hfields⟩
      · cases h
    · split at h
      · rename_i id source target hfields
        obtain ⟨m, hm, h⟩ := Option.bind_eq_some_iff.mp h
        obtain ⟨p, hp, h⟩ := Option.bind_eq_some_iff.mp h
        obtain ⟨t, ht, h⟩ := Option.bind_eq_some_iff.mp h
        cases h
        obtain ⟨_, rfl, hm⟩ := Json.required?_eq_some_iff.mp hm
        obtain ⟨_, rfl, hp⟩ := Json.required?_eq_some_iff.mp hp
        obtain ⟨_, rfl, ht⟩ := Json.required?_eq_some_iff.mp ht
        obtain ⟨text, rfl, hreads⟩ := matchId_ofJson?_eq_some_iff.mp hm
        obtain rfl := Json.asString?_eq_some_iff.mp hp
        obtain rfl := Json.asString?_eq_some_iff.mp ht
        exact ⟨_, .move m text p t hreads, hfields⟩
      · cases h
    · cases h
  · rintro ⟨values, hnamed, hfields⟩
    cases hnamed with
    | showMoves id text source hreads =>
        have hfields : j.fields? ["matchId", "position"] =
          some [some (.str text), some (.str source)] := hfields
        have hid : MatchId.ofJson? (.str text) = some id := hreads
        simp [ofFields?, hfields, Json.required?, hid, Json.asString?]
    | move id text source target hreads =>
        have hfields : j.fields? ["matchId", "position", "to"] =
          some [some (.str text), some (.str source), some (.str target)] := hfields
        have hid : MatchId.ofJson? (.str text) = some id := hreads
        simp [ofFields?, hfields, Json.required?, hid, Json.asString?]

/-- The named values of a command begin with its type. -/
theorem Named.exists_type (h : Named c values) :
    ∃ type rest, values = ("type", .str type) :: rest := by
  cases h with
  | showMoves => exact ⟨_, _, rfl⟩
  | move => exact ⟨_, _, rfl⟩

theorem forall₂_once_iff {members : List (String × Json)} :
    List.Forall₂ (Once members) (values.map Prod.fst) (values.map Prod.snd) ↔
      ∀ f ∈ values, Once members f.1 f.2 := by
  rw [List.forall₂_map_left_iff, List.forall₂_map_right_iff, List.forall₂_same]

/-- What is read as a command is what one may write for it. -/
theorem ofJson?_eq_some_iff : ofJson? j = some c ↔ Written c j := by
  constructor
  · intro h
    unfold ofJson? at h
    split at h
    · rename_i members
      obtain ⟨field, hfield, h⟩ := Option.bind_eq_some_iff.mp h
      obtain ⟨type, htype, h⟩ := Option.bind_eq_some_iff.mp h
      obtain ⟨_, rfl, htype⟩ := Json.required?_eq_some_iff.mp htype
      obtain rfl := Json.asString?_eq_some_iff.mp htype
      obtain ⟨values, hnamed, hfields⟩ := ofFields?_eq_some_iff.mp h
      refine .object hnamed fun f hf => ?_
      rcases List.mem_cons.mp hf with rfl | hf
      · exact Json.member?_eq_some_iff.mp hfield
      · exact forall₂_once_iff.mp (Json.fields?_obj_iff.mp hfields) f hf
    · rename_i first items
      obtain ⟨type, htype, h⟩ := Option.bind_eq_some_iff.mp h
      obtain rfl := Json.asString?_eq_some_iff.mp htype
      obtain ⟨values, hnamed, hfields⟩ := ofFields?_eq_some_iff.mp h
      obtain ⟨rfl, -⟩ := Json.fields?_arr_iff.mp hfields
      exact .array hnamed
    · cases h
  · intro h
    cases h with
    | object hnamed honce =>
        obtain ⟨type, rest, rfl⟩ := hnamed.exists_type
        obtain ⟨htype, hrest⟩ := List.forall_mem_cons.mp honce
        have hfields := ofFields?_eq_some_iff.mpr
          ⟨rest, hnamed, Json.fields?_obj_iff.mpr (forall₂_once_iff.mpr hrest)⟩
        simp [ofJson?, Json.member?_eq_some_iff.mpr htype, Json.required?, Json.asString?, hfields]
    | array hnamed =>
        obtain ⟨type, rest, rfl⟩ := hnamed.exists_type
        have hfields := ofFields?_eq_some_iff.mpr ⟨rest, hnamed, Json.fields?_arr_iff.mpr
          ⟨rfl, by rw [List.length_map, List.length_map]⟩⟩
        simp [ofJson?, Json.asString?, hfields]

/-! ### Texts -/

/-- The names of the values of a command. -/
def names : Command → List String
  | showMoves _ _ => ["type", "matchId", "position"]
  | move _ _ _ => ["type", "matchId", "position", "to"]

theorem Named.map_fst (h : Named c values) : values.map Prod.fst = c.names := by
  cases h <;> rfl

/-- A command that is written as an object is also written as this object with its members in
another order and with any others among them that do not have one of the names of the command. -/
theorem Written.of_perm {members members' other : List (String × Json)}
    (h : Written c (.obj members)) (hother : ∀ m ∈ other, m.1 ∉ c.names)
    (hperm : members'.Perm (members ++ other)) : Written c (.obj members') := by
  cases h with
  | object hnamed honce =>
      refine .object hnamed fun f hf => (honce f hf).of_perm ?_ hperm
      have hname : f.1 ∈ c.names := hnamed.map_fst ▸ List.mem_map_of_mem hf
      intro h
      obtain ⟨m, hm, heq⟩ := List.mem_map.mp h
      exact hother m hm (heq ▸ hname)

/-- The named values of a command, the match under its canonical name. -/
def members : Command → List (String × Json)
  | showMoves id source =>
    [("type", .str "chess-valid-moves"), ("matchId", .str id.text), ("position", .str source)]
  | move id source target =>
    [("type", .str "chess-move-piece"), ("matchId", .str id.text), ("position", .str source),
      ("to", .str target)]

theorem named_members (c : Command) : Named c c.members := by
  cases c with
  | showMoves id source => exact .showMoves id _ source (MatchId.ofText?_text id)
  | move id source target => exact .move id _ source target (MatchId.ofText?_text id)

theorem nodup_names (c : Command) : c.names.Nodup := by
  cases c <;> simp [names]

theorem once_members (c : Command) : ∀ f ∈ c.members, Once c.members f.1 f.2 := by
  intro f hf
  refine ⟨hf, List.count_eq_one_of_mem ?_ (List.mem_map_of_mem hf)⟩
  rw [(named_members c).map_fst]
  exact c.nodup_names

theorem read_obj_members (c : Command) :
    Json.read (Json.obj c.members).text = some (.obj c.members) := by
  cases c with
  | showMoves id source => exact Json.read_text rfl rfl (Nat.le_of_ble_eq_true rfl)
  | move id source target => exact Json.read_text rfl rfl (Nat.le_of_ble_eq_true rfl)

theorem read_arr_members (c : Command) :
    Json.read (Json.arr (c.members.map Prod.snd)).text = some (.arr (c.members.map Prod.snd)) := by
  cases c with
  | showMoves id source => exact Json.read_text rfl rfl (Nat.le_of_ble_eq_true rfl)
  | move id source target => exact Json.read_text rfl rfl (Nat.le_of_ble_eq_true rfl)

/-- **The reader of commands accepts exactly what is written as they are.**  A text is read as a
command exactly if it is the text of a JSON value that the command is written as: of an object that
has each named value of the command once, or of the array of these values.  Any other text is
refused.  In an object neither the order of the members matters nor what others are among them,
repeated or not.  And every command can be written in both ways. -/
theorem ofText?_eq_some_iff_written :
    (∀ text c, ofText? text = some c ↔ ∃ j, Json.read text = some j ∧ Written c j) ∧
    (∀ text, ofText? text = none ↔ ∀ j, Json.read text = some j → ∀ c, ¬ Written c j) ∧
    (∀ (c : Command) (members other members' : List (String × Json)), Written c (.obj members) →
      (∀ m ∈ other, m.1 ∉ c.names) → members'.Perm (members ++ other) →
      Written c (.obj members')) ∧
    ∀ c : Command, ofText? (Json.obj c.members).text = some c ∧
      ofText? (Json.arr (c.members.map Prod.snd)).text = some c := by
  have hsome : ∀ text c, ofText? text = some c ↔ ∃ j, Json.read text = some j ∧ Written c j := by
    intro text c
    unfold ofText?
    simp only [Option.bind_eq_some_iff, ofJson?_eq_some_iff]
  refine ⟨hsome, fun text => ?_, fun c members other members' h => h.of_perm,
    fun c => ⟨?_, ?_⟩⟩
  · rw [Option.eq_none_iff_forall_ne_some]
    constructor
    · intro h j hj c hc
      exact h c ((hsome text c).mpr ⟨j, hj, hc⟩)
    · intro h c hc
      obtain ⟨j, hj, hwritten⟩ := (hsome text c).mp hc
      exact h j hj c hwritten
  · exact (hsome _ c).mpr ⟨_, read_obj_members c, .object (named_members c) (once_members c)⟩
  · exact (hsome _ c).mpr ⟨_, read_arr_members c, .array (named_members c)⟩

end Command
end LiveChess
