import LiveChess.Proofs.MatchRun

/-! # The upkeep of the hall

Whatever records the store had at first, readable or not, and whatever is asked while calls of the
store fail, the hall is kept in order (`Kempt`): a table stands under the name of its match, the
match has a record of the same status and is not over, and no two tables have one serial number.
`Turn` says where the tables come from that the hall has after a request: they are tables it had
before, with the same serial numbers, or new ones, and only certain connections have come to follow
them.  `kempt_handle` is the step lemma and `kempt_after` the run lemma. -/

namespace LiveChess

/-- The record rebuilt as a game keeps its status. -/
theorem Game.status_ofRecord {r : MatchRecord} {g : Game} (h : Game.ofRecord r = .ok g) :
    g.status = r.status := by
  unfold Game.ofRecord at h
  simp only at h
  split at h
  · cases h
    rfl
  · cases h

/-- A later state of a table: it is the same one by its serial number, and only the given
connections have come to follow it. -/
structure Table.Continues (own : List Connection) (t t' : Table) : Prop where
  serial : t'.serial = t.serial
  followers : ∀ c, t'.followers.contains c = true → c ∈ own ∨ t.followers.contains c = true

namespace Table.Continues

variable {own : List Connection} {t t' t'' : Table}

theorem refl (own : List Connection) (t : Table) : Continues own t t :=
  ⟨rfl, fun _ hc => .inr hc⟩

theorem trans (h : Continues own t t') (h' : Continues own t' t'') : Continues own t t'' := by
  refine ⟨h'.serial.trans h.serial, fun c hc => ?_⟩
  rcases h'.followers c hc with hown | hc
  · exact .inl hown
  · exact h.followers c hc

theorem mono {own' : List Connection} (h : Continues own t t') (hsub : own ⊆ own') :
    Continues own' t t' :=
  ⟨h.serial, fun c hc => (h.followers c hc).imp_left fun hown => hsub hown⟩

end Table.Continues

namespace Arbiter

variable {a a' a'' : Arbiter} {id m : MatchId} {t t' : Table} {s s' : Store} {c : Connection}
  {own : List Connection} {opened : Connections} {r : Request}

/-! ### What a table may do -/

theorem Acted.continues (h : Acted own t s (t', s')) : Table.Continues own t t' := by
  cases h with
  | still cs among n =>
      refine ⟨Table.connectAll_serial _ _, fun c hc => ?_⟩
      exact (Table.contains_connectAll.mp hc).imp_left fun hcs => among hcs
  | stepped cs among next unfinished =>
      refine ⟨Table.connectAll_serial _ _, fun c hc => ?_⟩
      exact (Table.contains_connectAll.mp hc).imp_left fun hcs => among hcs

/-- The match has a record that is as far as the table's game. -/
def Recorded (s : Store) (m : MatchId) (t : Table) : Prop :=
  ∃ r, s.records.get? m = some r ∧ r.status = t.game.status

theorem Acted.recorded (h : Acted own t s (t', s')) (hr : Recorded s t.id t) :
    Recorded s' t.id t' := by
  cases h with
  | still cs among n =>
      obtain ⟨r, hr, hst⟩ := hr
      exact ⟨r, hr, by rw [Table.connectAll_game, hst]⟩
  | stepped cs among next unfinished =>
      exact ⟨next.toRecord, SortedMap.get?_insert_self _ _ _, by rw [Table.connectAll_game]; rfl⟩

/-- The table of a finished match only takes on followers. -/
theorem Acted.over (h : Acted own t s (t', s')) (ht : t.game.status = .closed) :
    t'.game.status = .closed ∧ s'.records = s.records := by
  cases h with
  | still cs among n => exact ⟨by rw [Table.connectAll_game, ht], rfl⟩
  | stepped cs among next unfinished => exact absurd ht unfinished

theorem Acted.loads (h : Acted own t s (t', s')) : s'.loads = s.loads := by
  cases h with
  | still cs among n => rfl
  | stepped cs among next unfinished => rfl

theorem issued_settle (a : Arbiter) (t : Table) : (a.settle t).hall.issued = a.hall.issued := by
  unfold settle Hall.release
  split_ifs <;> rfl

/-! ### Order in the hall -/

/-- The table is in order under the name of the match. -/
structure Sound (a : Arbiter) (m : MatchId) (t : Table) : Prop where
  id_eq : t.id = m
  recorded : Recorded a.store m t
  unfinished : t.game.status ≠ .closed
  serial_lt : t.serial < a.hall.issued

/-- All tables of the hall are in order, and their serial numbers tell them apart. -/
structure Kempt (a : Arbiter) : Prop where
  sound : ∀ m t, a.hall.tables.get? m = some t → Sound a m t
  serial_inj : ∀ m m' t t', a.hall.tables.get? m = some t → a.hall.tables.get? m' = some t' →
    t.serial = t'.serial → m = m'

theorem Kempt.keyed (h : Kempt a) : a.hall.Keyed := fun m t ht => (h.sound m t ht).id_eq

/-- Where the tables of the later state come from. -/
structure Turn (own : List Connection) (a a' : Arbiter) : Prop where
  issued : a.hall.issued ≤ a'.hall.issued
  origin : ∀ m t', a'.hall.tables.get? m = some t' →
    (∃ t, a.hall.tables.get? m = some t ∧ Table.Continues own t t') ∨
      a.hall.issued ≤ t'.serial ∧ ∀ c, t'.followers.contains c = true → c ∈ own

theorem Turn.refl (own : List Connection) (a : Arbiter) : Turn own a a :=
  ⟨Nat.le_refl _, fun _ t ht => .inl ⟨t, ht, .refl own t⟩⟩

theorem Turn.trans (h : Turn own a a') (h' : Turn own a' a'') : Turn own a a'' := by
  refine ⟨h.issued.trans h'.issued, fun m t'' ht'' => ?_⟩
  rcases h'.origin m t'' ht'' with ⟨t', ht', hgo'⟩ | ⟨hlt, hown⟩
  · rcases h.origin m t' ht' with ⟨t, ht, hgo⟩ | ⟨hlt, hown⟩
    · exact .inl ⟨t, ht, hgo.trans hgo'⟩
    · refine .inr ⟨hgo'.serial ▸ hlt, fun c hc => ?_⟩
      rcases hgo'.followers c hc with hc | hc
      · exact hc
      · exact hown c hc
  · exact .inr ⟨h.issued.trans hlt, hown⟩

theorem Turn.mono {own' : List Connection} (h : Turn own a a') (hsub : own ⊆ own') :
    Turn own' a a' := by
  refine ⟨h.issued, fun m t' ht' => ?_⟩
  rcases h.origin m t' ht' with ⟨t, ht, hgo⟩ | ⟨hlt, hown⟩
  · exact .inl ⟨t, ht, hgo.mono hsub⟩
  · exact .inr ⟨hlt, fun c hc => hsub (hown c hc)⟩

/-- One match has a table in order now, the former one or a new one, or it has none; all other
matches are as before. -/
structure Renewed (own : List Connection) (id : MatchId) (a a' : Arbiter) : Prop where
  off : AgreesOff id a a'
  issued : a.hall.issued ≤ a'.hall.issued
  sound : ∀ t', a'.hall.tables.get? id = some t' → Sound a' id t'
  origin : ∀ t', a'.hall.tables.get? id = some t' →
    (∃ t, a.hall.tables.get? id = some t ∧ Table.Continues own t t') ∨
      a.hall.issued ≤ t'.serial ∧ ∀ c, t'.followers.contains c = true → c ∈ own

theorem Renewed.turn (h : Renewed own id a a') : Turn own a a' := by
  refine ⟨h.issued, fun m t' ht' => ?_⟩
  by_cases hm : m = id
  · subst hm
    exact h.origin t' ht'
  · rw [h.off.tables m hm] at ht'
    exact .inl ⟨t', ht', .refl own t'⟩

theorem Renewed.kempt (h : Renewed own id a a') (hk : Kempt a) : Kempt a' := by
  have hne : ∀ m t t', m ≠ id → a'.hall.tables.get? m = some t → a'.hall.tables.get? id = some t' →
      t.serial ≠ t'.serial := by
    intro m t t' hm ht ht' hs
    rw [h.off.tables m hm] at ht
    rcases h.origin t' ht' with ⟨t₀, ht₀, hgo⟩ | ⟨hlt, -⟩
    · exact hm (hk.serial_inj m id t t₀ ht ht₀ (hs.trans hgo.serial))
    · have := (hk.sound m t ht).serial_lt
      omega
  refine ⟨fun m t ht => ?_, fun m m' t t' ht ht' hs => ?_⟩
  · by_cases hm : m = id
    · subst hm
      exact h.sound t ht
    · rw [h.off.tables m hm] at ht
      obtain ⟨hid, ⟨r, hr, hst⟩, hun, hlt⟩ := hk.sound m t ht
      exact ⟨hid, ⟨r, (h.off.records m hm).trans hr, hst⟩, hun, hlt.trans_le h.issued⟩
  · by_cases hm : m = id
    · by_cases hm' : m' = id
      · exact hm.trans hm'.symm
      · subst hm
        exact absurd hs.symm (hne m' t' t hm' ht' ht)
    · by_cases hm' : m' = id
      · subst hm'
        exact absurd hs (hne m t t' hm ht ht')
      · rw [h.off.tables m hm] at ht
        rw [h.off.tables m' hm'] at ht'
        exact hk.serial_inj m m' t t' ht ht' hs

/-! ### Attending to a match -/

/-- A table that was found, with the state it was found in. -/
structure Found (a : Arbiter) (id : MatchId) (t : Table) (a' : Arbiter) : Prop where
  id_eq : t.id = id
  off : AgreesOff id a a'
  records : a'.store.records = a.store.records
  recorded : Recorded a.store id t
  issued : a.hall.issued ≤ a'.hall.issued
  serial_lt : t.serial < a'.hall.issued
  origin : a.hall.tables.get? id = some t ∧ a' = a ∨
    a.hall.tables.get? id = none ∧ a'.hall.tables = a.hall.tables.insert id t ∧
      t.serial = a.hall.issued ∧ t.followers = .empty

theorem Finds.found (hk : Kempt a) (h : Finds a id (.ok t, a')) : Found a id t a' := by
  have hoff := h.agreesOff hk.keyed
  have hid := h.id_eq hk.keyed (t := t) rfl
  cases h with
  | held t ht =>
      obtain ⟨-, hr, -, hlt⟩ := hk.sound id t ht
      exact ⟨hid, hoff, rfl, hr, Nat.le_refl _, hlt, .inl ⟨ht, rfl⟩⟩
  | loaded r g ht hr hg =>
      exact ⟨hid, hoff, rfl, ⟨r, hr, (Game.status_ofRecord hg).symm⟩, Nat.le_succ _,
        Nat.lt_succ_self _, .inr ⟨ht, rfl, rfl, rfl⟩⟩

/-- How attending to a match may end: there is no table to be found, or the one that is found acts
and is settled. -/
inductive Attended (own : List Connection) (a : Arbiter) (id : MatchId) : Arbiter → Prop where
  | missing (h : a.hall.tables.get? id = none) :
      Attended own a id { a with store := { a.store with loads := a.store.loads + 1 } }
  | served (t : Table) (a' : Arbiter) (found : Finds a id (.ok t, a')) (t' : Table) (s' : Store)
      (act : Acted own t a'.store (t', s')) :
      Attended own a id ({ a' with store := s' }.settle t')

theorem attend_attended {β : Type} (a : Arbiter) (id : MatchId)
    (act : Table → Store → β × Table × Store) (hact : ∀ t s, Acted own t s (act t s).2) :
    Attended own a id (a.attend id act).2 := by
  have hfind := a.find_finds id
  unfold attend
  generalize a.find id = x at hfind ⊢
  obtain ⟨e | t, a'⟩ := x
  · cases hfind with
    | refused e h => exact .missing h
  · exact .served t a' hfind _ _ (hact t a'.store)

theorem Attended.renewed (hk : Kempt a) (h : Attended own a id a') : Renewed own id a a' := by
  cases h with
  | missing h =>
      refine ⟨⟨hk.keyed, fun _ _ => rfl, fun _ _ => rfl⟩, Nat.le_refl _, fun t' ht' => ?_,
        fun t' ht' => ?_⟩
      · rw [show a.hall.tables.get? id = some t' from ht'] at h
        cases h
      · rw [show a.hall.tables.get? id = some t' from ht'] at h
        cases h
  | served t a₁ hfind t' s' hact =>
      have hf := hfind.found hk
      have hid : t'.id = id := hact.id_eq.trans hf.id_eq
      have hget : ∀ t'', ({ a₁ with store := s' }.settle t').hall.tables.get? id = some t'' →
          t'' = t' ∧ t'.game.status ≠ .closed := by
        intro t'' h
        rw [get?_settle, if_pos hid.symm] at h
        split_ifs at h with hc
        cases h
        exact ⟨rfl, hc⟩
      refine ⟨hf.off.settle hf.id_eq hact, ?_, fun t'' ht'' => ?_, fun t'' ht'' => ?_⟩
      · rw [issued_settle]
        exact hf.issued
      · obtain ⟨rfl, hun⟩ := hget t'' ht''
        refine ⟨hid, ?_, hun, ?_⟩
        · have hr : Recorded a₁.store t.id t := by
            obtain ⟨r, hr, hst⟩ := hf.recorded
            exact ⟨r, by rw [hf.records, hf.id_eq, hr], hst⟩
          exact hf.id_eq ▸ hact.recorded hr
        · rw [issued_settle, hact.continues.serial]
          exact hf.serial_lt
      · obtain ⟨rfl, -⟩ := hget t'' ht''
        rcases hf.origin with ⟨ht, -⟩ | ⟨-, -, hserial, hnone⟩
        · exact .inl ⟨t, ht, hact.continues⟩
        · refine .inr ⟨by rw [hact.continues.serial, hserial], fun c hc => ?_⟩
          rcases hact.continues.followers c hc with hc | hc
          · exact hc
          · rw [hnone] at hc
            cases hc

/-! ### All requests -/

/-- Order is a matter of the hall and the records. -/
theorem Kempt.congr (h : Kempt a) (hhall : a'.hall = a.hall)
    (hrecords : a'.store.records = a.store.records) : Kempt a' := by
  refine ⟨fun m t ht => ?_, fun m m' t t' ht ht' => ?_⟩
  · rw [hhall] at ht
    obtain ⟨hid, ⟨r, hr, hst⟩, hun, hlt⟩ := h.sound m t ht
    exact ⟨hid, ⟨r, hrecords ▸ hr, hst⟩, hun, hhall ▸ hlt⟩
  · rw [hhall] at ht ht'
    exact h.serial_inj m m' t t' ht ht'

theorem kempt_showAll (hk : Kempt a) (c : Connection) (ids : List MatchId) :
    Kempt (showAll c ids a).2 ∧ Turn [c] a (showAll c ids a).2 := by
  refine showAll_keeps (P := fun a' => Kempt a' ∧ Turn [c] a a') ?_ ids ⟨hk, .refl _ a⟩
  rintro a' id ⟨hk', hturn⟩
  have h := (attend_attended a' id _ (followAct_acted [c])).renewed hk'
  rw [state_showOne]
  exact ⟨h.kempt hk', hturn.trans h.turn⟩

theorem kempt_disconnect (hk : Kempt a) (opened : Connections) (c : Connection) :
    Kempt (a.disconnect opened c).state ∧ Turn [] a (a.disconnect opened c).state := by
  have hget : ∀ m t', (a.disconnect opened c).state.hall.tables.get? m = some t' →
      ∃ t, a.hall.tables.get? m = some t ∧ t.disconnect c = t' := by
    intro m t' h
    rw [get?_disconnect] at h
    exact Option.map_eq_some_iff.mp h
  refine ⟨⟨fun m t' h => ?_, fun m m' t t' h h' hs => ?_⟩, Nat.le_refl _, fun m t' h => ?_⟩
  · obtain ⟨t, ht, rfl⟩ := hget m t' h
    obtain ⟨hid, hr, hun, hlt⟩ := hk.sound m t ht
    exact ⟨hid, hr, hun, hlt⟩
  · obtain ⟨t, ht, rfl⟩ := hget m t h
    obtain ⟨t', ht', rfl⟩ := hget m' t' h'
    exact hk.serial_inj m m' t t' ht ht' hs
  · obtain ⟨t, ht, rfl⟩ := hget m t' h
    exact .inl ⟨t, ht, rfl, fun d hd => .inr (Connections.contains_erase.mp hd).2⟩

theorem mem_newcomers_of_players {creator : UserId} {color : Color} {opponent : Option UserId}
    (h : c ∈ (seatsOf creator color opponent).players.flatMap opened.ofUser) :
    c ∈ (Request.create creator color opponent).newcomers opened := by
  obtain ⟨u, hu, hc⟩ := List.mem_flatMap.mp h
  refine List.mem_flatMap.mpr ⟨u, ?_, hc⟩
  cases color <;> simpa [seatsOf, Seats.players, or_comm] using hu

theorem kempt_create (hk : Kempt a) (opened : Connections) (creator : UserId) (color : Color)
    (opponent : Option UserId) :
    Kempt (a.create opened creator color opponent).state ∧
      Turn ((Request.create creator color opponent).newcomers opened) a
        (a.create opened creator color opponent).state := by
  cases create_founded hk.keyed opened creator color opponent with
  | refused e hx =>
      rw [hx]
      exact ⟨hk, .refl _ a⟩
  | founded answer distinct stands off watching issued =>
      have h : Renewed ((Request.create creator color opponent).newcomers opened) a.store.nextId a
          (a.create opened creator color opponent).state := by
        refine ⟨off, by omega, fun t' ht' => ?_, fun t' ht' => ?_⟩
        · rw [stands.table] at ht'
          cases ht'
          refine ⟨newTable_id a opened _, ⟨_, stands.record, rfl⟩, stands.unfinished, ?_⟩
          rw [issued, newTable, Table.connectAll_serial]
          exact Nat.lt_succ_self _
        · rw [stands.table] at ht'
          cases ht'
          refine .inr ⟨by rw [newTable, Table.connectAll_serial], fun c hc => ?_⟩
          rcases Table.contains_connectAll.mp hc with hc | hc
          · exact mem_newcomers_of_players hc
          · cases hc
      exact ⟨h.kempt hk, h.turn⟩

/-- Every request leaves the hall in order. -/
theorem kempt_handle (hk : Kempt a) (opened : Connections) (r : Request) :
    Kempt (a.handle opened r).state ∧ Turn (r.newcomers opened) a (a.handle opened r).state := by
  cases hid : r.about with
  | some id =>
      rcases state_handle_about hk.keyed opened hid with ⟨-, hs⟩ | ⟨-, β, act, watching, hact, hs⟩
      · rw [hs]
        exact ⟨hk, .refl _ a⟩
      · have h := (attend_attended a id act hact).renewed hk
        rw [hs]
        exact ⟨(h.kempt hk).congr rfl rfl, h.turn.issued, h.turn.origin⟩
  | none =>
      cases r with
      | connect c =>
          show Kempt (a.connect c).state ∧ Turn [c] a (a.connect c).state
          rw [state_connect]
          exact kempt_showAll hk c _
      | disconnect c => exact kempt_disconnect hk opened c
      | create creator color opponent => exact kempt_create hk opened creator color opponent
      | _ => cases hid

theorem Kempt.under (h : Kempt a) (o : Outage) : Kempt (a.under o) := h.congr rfl rfl

theorem kempt_meet (hk : Kempt a) (e : Occasion) :
    Kempt (a.meet e).state ∧ Turn (e.request.newcomers e.opened) a (a.meet e).state := by
  obtain ⟨h, hturn⟩ := kempt_handle (hk.under e.outage) e.opened e.request
  exact ⟨h, hturn.issued, hturn.origin⟩

/-- A run leaves the hall in order. -/
theorem kempt_after (hk : Kempt a) (es : List Occasion) :
    Kempt (a.after es) ∧ ∃ own, Turn own a (a.after es) := by
  induction es generalizing a with
  | nil => exact ⟨hk, [], .refl [] a⟩
  | cons e es ih =>
      obtain ⟨hk', hturn⟩ := kempt_meet hk e
      obtain ⟨hk'', own, hturn'⟩ := ih hk'
      refine ⟨hk'', e.request.newcomers e.opened ++ own, ?_⟩
      exact (hturn.mono (List.subset_append_left _ _)).trans
        (hturn'.mono (List.subset_append_right _ _))

theorem kempt_new (store : Store) (budget : Duration) : Kempt (new store budget) := by
  refine ⟨fun m t h => ?_, fun m m' t t' h => ?_⟩
  · cases h
  · cases h

end Arbiter
end LiveChess
