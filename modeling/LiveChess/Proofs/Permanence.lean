import LiveChess.Proofs.Upkeep

/-! # Tables stay as long as their matches go on

Once a match has a table, it keeps that very table until it is over, and a match that is over has
none (`tables_stay`).  So a request on a match reads the record of the match exactly if the match
has no table.  `Lasts` says what is kept of tables and of finished matches from one state to a later
one; it is proved for each request and carried through runs in which new matches get fresh
names. -/

namespace LiveChess

namespace Arbiter

variable {a a' a'' : Arbiter} {id m : MatchId} {t t' : Table} {own : List Connection}
  {opened : Connections} {r : Request}

/-- The store has a record of the match that says it is over. -/
def Finished (a : Arbiter) (m : MatchId) : Prop :=
  ∃ r, a.store.records.get? m = some r ∧ r.status = .closed

/-- The match has no record yet. -/
def Unnamed (a : Arbiter) (m : MatchId) : Prop := a.store.records.get? m = none

instance (a : Arbiter) (m : MatchId) : Decidable (Unnamed a m) :=
  inferInstanceAs (Decidable (_ = none))

/-- In the run every new match gets a name that no record has. -/
def NamesAfresh (a : Arbiter) : List Occasion → Prop
  | [] => True
  | e :: es => (e.request.creates = true → Unnamed a a.store.nextId) ∧
      NamesAfresh (a.meet e).state es

instance decidableNamesAfresh (a : Arbiter) : (es : List Occasion) → Decidable (NamesAfresh a es)
  | [] => inferInstanceAs (Decidable True)
  | e :: es =>
    have := decidableNamesAfresh (a.meet e).state es
    inferInstanceAs (Decidable ((_ → _) ∧ _))

/-- Each match keeps its table until it is over, and what is over stays over. -/
structure Lasts (a a' : Arbiter) : Prop where
  table : ∀ m t, a.hall.tables.get? m = some t →
    (∃ t', a'.hall.tables.get? m = some t' ∧ t'.serial = t.serial) ∨ Finished a' m
  finished : ∀ m, Finished a m → Finished a' m

theorem Lasts.refl (a : Arbiter) : Lasts a a := ⟨fun _ t ht => .inl ⟨t, ht, rfl⟩, fun _ h => h⟩

theorem Lasts.trans (h : Lasts a a') (h' : Lasts a' a'') : Lasts a a'' := by
  refine ⟨fun m t ht => ?_, fun m hm => h'.finished m (h.finished m hm)⟩
  rcases h.table m t ht with ⟨t', ht', hs⟩ | hm
  · rcases h'.table m t' ht' with ⟨t'', ht'', hs'⟩ | hm
    · exact .inl ⟨t'', ht'', hs'.trans hs⟩
    · exact .inr hm
  · exact .inr (h'.finished m hm)

/-- A change at one match lasts if it does so at that match. -/
theorem AgreesOff.lasts (h : AgreesOff id a a')
    (htable : ∀ t, a.hall.tables.get? id = some t →
      (∃ t', a'.hall.tables.get? id = some t' ∧ t'.serial = t.serial) ∨ Finished a' id)
    (hfinished : Finished a id → Finished a' id) : Lasts a a' := by
  refine ⟨fun m t ht => ?_, fun m hm => ?_⟩
  · by_cases he : m = id
    · subst he
      exact htable t ht
    · exact .inl ⟨t, (h.tables m he).trans ht, rfl⟩
  · by_cases he : m = id
    · subst he
      exact hfinished hm
    · obtain ⟨r, hr, hst⟩ := hm
      exact ⟨r, (h.records m he).trans hr, hst⟩

/-! ### One request -/

theorem Attended.lasts (hk : Kempt a) (h : Attended own a id a') : Lasts a a' := by
  have hoff := (h.renewed hk).off
  cases h with
  | missing h => exact ⟨fun m t ht => .inl ⟨t, ht, rfl⟩, fun m hm => hm⟩
  | served t a₁ hfind t' s' hact =>
      have hf := hfind.found hk
      have hid : t'.id = id := hact.id_eq.trans hf.id_eq
      obtain ⟨r, hr, hst⟩ := hf.recorded
      have hr₁ : a₁.store.records.get? id = some r := by rw [hf.records, hr]
      have hrecorded : Recorded s' id t' :=
        hf.id_eq ▸ hact.recorded ⟨r, hf.id_eq.symm ▸ hr₁, hst⟩
      refine hoff.lasts (fun t₀ ht₀ => ?_) ?_
      · -- the match had a table, so that is the one that was found
        have ht : t₀ = t := by
          rcases hf.origin with ⟨ht, -⟩ | ⟨hnone, -⟩
          · rw [ht₀] at ht
            exact Option.some.inj ht
          · rw [ht₀] at hnone
            cases hnone
        by_cases hc : t'.game.status = .closed
        · obtain ⟨r', hr', hst'⟩ := hrecorded
          exact .inr ⟨r', hr', hst'.trans hc⟩
        · refine .inl ⟨t', ?_, ?_⟩
          · rw [get?_settle, if_pos hid.symm, if_neg hc]
          · rw [ht, hact.continues.serial]
      · rintro ⟨r', hr', hst'⟩
        rw [hr] at hr'
        cases hr'
        have hover := (hact.over (hst.symm.trans hst')).2
        refine ⟨r, ?_, hst'⟩
        show s'.records.get? id = some r
        rw [hover, hr₁]

theorem lasts_showAll (hk : Kempt a) (c : Connection) (ids : List MatchId) :
    Lasts a (showAll c ids a).2 := by
  refine (showAll_keeps (P := fun a' => Kempt a' ∧ Lasts a a') ?_ ids ⟨hk, .refl a⟩).2
  rintro a' id ⟨hk', hlasts⟩
  have h := attend_attended a' id _ (followAct_acted [c])
  rw [state_showOne]
  exact ⟨(h.renewed hk').kempt hk', hlasts.trans (h.lasts hk')⟩

theorem lasts_disconnect (a : Arbiter) (opened : Connections) (c : Connection) :
    Lasts a (a.disconnect opened c).state := by
  refine ⟨fun m t ht => .inl ⟨t.disconnect c, ?_, rfl⟩, fun m hm => hm⟩
  rw [get?_disconnect, ht]
  rfl

theorem lasts_create (hk : Kempt a) (opened : Connections) (creator : UserId) (color : Color)
    (opponent : Option UserId) (hfresh : Unnamed a a.store.nextId) :
    Lasts a (a.create opened creator color opponent).state := by
  cases create_founded hk.keyed opened creator color opponent with
  | refused e hx =>
      rw [hx]
      exact .refl a
  | founded answer distinct stands off watching issued =>
      refine off.lasts (fun t ht => ?_) ?_
      · obtain ⟨r, hr, -⟩ := (hk.sound _ t ht).recorded
        rw [show a.store.records.get? a.store.nextId = none from hfresh] at hr
        cases hr
      · rintro ⟨r, hr, -⟩
        rw [show a.store.records.get? a.store.nextId = none from hfresh] at hr
        cases hr

theorem lasts_handle (hk : Kempt a) (opened : Connections)
    (hfresh : r.creates = true → Unnamed a a.store.nextId) :
    Lasts a (a.handle opened r).state := by
  cases hid : r.about with
  | some id =>
      rcases state_handle_about hk.keyed opened hid with ⟨-, hs⟩ | ⟨-, β, act, watching, hact, hs⟩
      · rw [hs]
        exact .refl a
      · have h := (attend_attended a id act hact).lasts hk
        rw [hs]
        exact ⟨h.table, h.finished⟩
  | none =>
      cases r with
      | connect c =>
          show Lasts a (a.connect c).state
          rw [state_connect]
          exact lasts_showAll hk c _
      | disconnect c => exact lasts_disconnect a opened c
      | create creator color opponent =>
          exact lasts_create hk opened creator color opponent (hfresh rfl)
      | _ => cases hid

/-! ### Runs -/

theorem lasts_after (hk : Kempt a) {es : List Occasion} (h : NamesAfresh a es) :
    Lasts a (a.after es) := by
  induction es generalizing a with
  | nil => exact .refl a
  | cons e es ih =>
      obtain ⟨hfresh, hes⟩ := h
      have hmeet := lasts_handle (hk.under e.outage) e.opened hfresh
      have hfirst : Lasts a (a.meet e).state := ⟨hmeet.table, hmeet.finished⟩
      exact hfirst.trans (ih (kempt_meet hk e).1 hes)

/-- A finished match has no table. -/
theorem Kempt.no_table_of_finished (hk : Kempt a) (h : Finished a m) :
    a.hall.tables.contains m = false := by
  by_contra hc
  obtain ⟨t, ht⟩ := Option.isSome_iff_exists.mp (Bool.not_eq_false _ ▸ hc)
  obtain ⟨-, ⟨r, hr, hst⟩, hun, -⟩ := hk.sound m t ht
  obtain ⟨r', hr', hst'⟩ := h
  rw [hr] at hr'
  cases hr'
  exact hun (hst.symm.trans hst')

/-- Attending to a match reads its record once if it has no table, and else not at all. -/
theorem Attended.loads (h : Attended own a id a') :
    a'.store.loads = a.store.loads + if a.hall.tables.contains id then 0 else 1 := by
  cases h with
  | missing h =>
      have hc : a.hall.tables.contains id = false := by
        unfold SortedMap.contains
        rw [h]
        rfl
      rw [hc]
      rfl
  | served t a₁ hfind t' s' hact =>
      show s'.loads = _
      rw [hact.loads]
      unfold SortedMap.contains
      cases hfind with
      | held t ht =>
          rw [ht]
          rfl
      | loaded r g ht hr hg =>
          rw [ht]
          rfl

theorem loads_handle (hk : Kempt a) (opened : Connections) (hr : r.about = some id)
    (hl : r.legible = true) : (a.handle opened r).state.store.loads =
      a.store.loads + if a.hall.tables.contains id then 0 else 1 := by
  rcases state_handle_about hk.keyed opened hr with ⟨hf, -⟩ | ⟨-, β, act, watching, hact, hs⟩
  · rw [hl] at hf
    cases hf
  · rw [hs]
    exact (attend_attended a id act hact).loads

/-- **Tables stay as long as their matches go on, and no longer.**  Start from a store with any
records, and handle any requests with any connections open and any calls of the store failing.  Then
every table stands under the name of its match, which is not over, and no two tables are one.  As
long as new matches get fresh names, a table stays the same one until its match is over; and the
tables set up later have other serial numbers.  A request on a match, if it names no square that
cannot be read, reads the record of the match not at all if the match has a table, and once if it
has none; a match that is over has none. -/
theorem tables_stay (store : Store) (budget : Duration) {es : List Occasion} {a : Arbiter}
    (ha : a = (new store budget).after es) :
    (∀ m t, a.hall.tables.get? m = some t → t.id = m ∧ t.game.status ≠ .closed) ∧
      (∀ m m' t t', a.hall.tables.get? m = some t → a.hall.tables.get? m' = some t' →
        t.serial = t'.serial → m = m') ∧
      (∀ later, NamesAfresh a later → ∀ m t, a.hall.tables.get? m = some t →
        (∃ t', (a.after later).hall.tables.get? m = some t' ∧ t'.serial = t.serial) ∨
          Finished (a.after later) m) ∧
      (∀ later m t', (a.after later).hall.tables.get? m = some t' →
        (∃ t, a.hall.tables.get? m = some t ∧ t'.serial = t.serial) ∨
          ∀ m₀ t₀, a.hall.tables.get? m₀ = some t₀ → t'.serial ≠ t₀.serial) ∧
      ∀ e m, e.request.about = some m →
        (e.request.legible = true → (a.meet e).state.store.loads =
          a.store.loads + if a.hall.tables.contains m then 0 else 1) ∧
        (Finished a m → a.hall.tables.contains m = false) := by
  have hk : Kempt a := ha ▸ (kempt_after (kempt_new store budget) es).1
  refine ⟨?_, hk.serial_inj, ?_, ?_, ?_⟩
  · intro m t ht
    exact ⟨(hk.sound m t ht).id_eq, (hk.sound m t ht).unfinished⟩
  · intro later hlater m t ht
    exact (lasts_after hk hlater).table m t ht
  · intro later m t' ht'
    obtain ⟨-, own, hturn⟩ := kempt_after hk later
    rcases hturn.origin m t' ht' with ⟨t, ht, hgo⟩ | ⟨hlt, -⟩
    · exact .inl ⟨t, ht, hgo.serial⟩
    · refine .inr fun m₀ t₀ ht₀ => ?_
      have := (hk.sound m₀ t₀ ht₀).serial_lt
      omega
  · intro e m hm
    exact ⟨loads_handle (hk.under e.outage) e.opened hm, hk.no_table_of_finished⟩

/-- Beside a finished match and one with a broken record, a match that was set up for a question
keeps its table through a new match being begun, until it is over by mate. -/
theorem tables_stay_until_mate :
    let done : MatchId := ⟨⟨3⟩⟩
    let broken : MatchId := ⟨⟨5⟩⟩
    let m : MatchId := ⟨⟨7⟩⟩
    let alice : Connection := ⟨⟨0⟩, ⟨⟨1⟩⟩⟩
    let seats : Seats := ⟨some alice.user, some ⟨⟨2⟩⟩⟩
    let endgame : MatchRecord := { MatchRecord.fresh seats with
      pieces := [⟨.white, .king, 2, 1⟩, ⟨.white, .queen, 1, 2⟩, ⟨.black, .king, 0, 0⟩] }
    let store := (((Store.new [⟨⟨9⟩⟩]).seed done { endgame with status := .closed }).seed
      broken { endgame with pieces := [⟨.white, .king, 9, 9⟩] }).seed m endgame
    let query : Occasion := ⟨.showMoves alice m "c7", .empty, .none⟩
    let later : List Occasion := [⟨.watch done alice.user, .empty, .none⟩,
      ⟨.create alice.user .white none, .empty, .none⟩, ⟨.connect alice, .empty, .none⟩,
      ⟨.move alice m "c7" "b7", .empty, .none⟩]
    let a := (new store ⟨1000⟩).after [query]
    NamesAfresh a later ∧ a.hall.tables.contains done = false ∧
      (∃ t, a.hall.tables.get? m = some t) ∧
      (a.meet query).state.store.loads = a.store.loads ∧
      (a.after later).hall.tables.contains m = false ∧ Finished (a.after later) m ∧
      ((a.after later).meet query).state.store.loads = (a.after later).store.loads + 1 := by
  intro done broken m alice seats endgame store query later a
  have hfresh : NamesAfresh a later := by decide +kernel
  have hdone : a.hall.tables.contains done = false := by decide +kernel
  have hcached : a.hall.tables.contains m = true := by decide +kernel
  have hgone : (a.after later).hall.tables.contains m = false := by decide +kernel
  have ha : a = (new store ⟨1000⟩).after [query] := rfl
  have hlast : a.after later = (new store ⟨1000⟩).after ([query] ++ later) := List.foldl_append.symm
  clear_value a
  obtain ⟨-, -, hstay, -, hloads⟩ := tables_stay store ⟨1000⟩ ha
  obtain ⟨-, -, -, -, hloads'⟩ := tables_stay store ⟨1000⟩ hlast
  obtain ⟨t, ht⟩ := Option.isSome_iff_exists.mp hcached
  have hfinished : Finished (a.after later) m := by
    rcases hstay later hfresh m t ht with ⟨t', ht', -⟩ | hf
    · rw [SortedMap.contains, ht'] at hgone
      cases hgone
    · exact hf
  have h := (hloads query m rfl).1 (by decide)
  have h' := (hloads' query m rfl).1 (by decide)
  rw [hcached] at h
  rw [hgone] at h'
  exact ⟨hfresh, hdone, ⟨t, ht⟩, h, hgone, hfinished, h'⟩

end Arbiter
end LiveChess
