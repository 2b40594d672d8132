import LiveChess.Proofs.MatchRun
import LiveChess.Proofs.Watching

/-! # Connections that come and go

A world is an arbiter with the connections that are open.  In it connections open and close, and
requests are handled, in any order; a run is orderly if every connection lives once (`Orderly`):
it opens under a number of its own, its connecting is handled after that, it asks for something only
until its disconnecting is handled, and that comes after it has closed.  What an orderly run has of
connections and requests is kept by `Tidy`. -/

namespace LiveChess

theorem Arbiter.meet_noted {a : Arbiter} (hk : a.hall.Keyed) (e : Occasion) :
    Arbiter.Noted a e.opened e.request (a.meet e).state := by
  have h := Arbiter.handle_noted (a := a.under e.outage) hk e.opened e.request
  cases h with
  | same h => exact .same h
  | forgot c hr hnone h => exact .forgot c hr hnone h
  | noted id u hr hsome h => exact .noted id u hr hsome h

/-- An arbiter and the connections that are open. -/
structure World where
  opened : Connections
  arbiter : Arbiter

/-- What happens in a world: a connection opens or closes, or a request is handled. -/
inductive Happening where
  | opens (c : Connection)
  | closes (c : Connection)
  | asks (outage : Outage) (request : Request)

namespace Happening

/-- The connection that opens. -/
def opening? : Happening → Option Connection
  | .opens c => some c
  | _ => none

/-- The connection that closes. -/
def closing? : Happening → Option Connection
  | .closes c => some c
  | _ => none

/-- The request that is handled. -/
def request? : Happening → Option Request
  | .asks _ r => some r
  | _ => none

end Happening

/-- The connections that have opened. -/
def openings (past : List Happening) : List Connection := past.filterMap Happening.opening?

/-- The connections that have closed. -/
def closings (past : List Happening) : List Connection := past.filterMap Happening.closing?

/-- The requests that have been handled. -/
def requests (past : List Happening) : List Request := past.filterMap Happening.request?

variable {past es es' : List Happening} {e : Happening} {w : World} {c d : Connection}

theorem mem_openings_snoc :
    c ∈ openings (past ++ [e]) ↔ c ∈ openings past ∨ e.opening? = some c := by
  unfold openings
  rw [List.filterMap_append, List.mem_append]
  simp

theorem mem_closings_snoc :
    c ∈ closings (past ++ [e]) ↔ c ∈ closings past ∨ e.closing? = some c := by
  unfold closings
  rw [List.filterMap_append, List.mem_append]
  simp

theorem mem_requests_snoc {r : Request} :
    r ∈ requests (past ++ [e]) ↔ r ∈ requests past ∨ e.request? = some r := by
  unfold requests
  rw [List.filterMap_append, List.mem_append]
  simp

theorem mem_closings : c ∈ closings es ↔ ∃ e ∈ es, e.closing? = some c := List.mem_filterMap

/-- A request comes in order: after what has happened, and with a store that tells in which matches
a user has a seat and names every new match afresh. -/
def Request.InOrder (past : List Happening) (a : Arbiter) : Request → Prop
  | .connect c => c ∈ openings past ∧ .connect c ∉ requests past ∧
      (a.hall.seated c.user a.store).isOk = true
  | .disconnect c => c ∈ closings past ∧ .connect c ∈ requests past ∧
      .disconnect c ∉ requests past
  | .showMoves c _ _ => .connect c ∈ requests past ∧ .disconnect c ∉ requests past
  | .move c _ _ _ => .connect c ∈ requests past ∧ .disconnect c ∉ requests past
  | .join _ _ => True
  | .watch _ _ => True
  | .create _ _ _ => a.store.records.get? a.store.nextId = none

instance (past : List Happening) (a : Arbiter) (r : Request) : Decidable (r.InOrder past a) :=
  match r with
  | .connect _ => inferInstanceAs (Decidable (_ ∧ _ ∧ _))
  | .disconnect _ => inferInstanceAs (Decidable (_ ∧ _ ∧ _))
  | .showMoves _ _ _ => inferInstanceAs (Decidable (_ ∧ _))
  | .move _ _ _ _ => inferInstanceAs (Decidable (_ ∧ _))
  | .join _ _ => inferInstanceAs (Decidable True)
  | .watch _ _ => inferInstanceAs (Decidable True)
  | .create _ _ _ => inferInstanceAs (Decidable (_ = none))

namespace World

/-- A world in which nothing has happened, with an empty store. -/
def new (supply : List MatchId) (budget : Duration) : World :=
  ⟨.empty, .new (.new supply) budget⟩

/-- Let something happen; notices may be sent. -/
def step (w : World) : Happening → List Delivery × World
  | .opens c => ([], { w with opened := w.opened.insert c })
  | .closes c => ([], { w with opened := w.opened.erase c })
  | .asks o r =>
    let x := w.arbiter.meet ⟨r, w.opened, o⟩
    (x.sent, { w with arbiter := x.state })

/-- Let things happen one after another. -/
def run (w : World) : List Happening → List Delivery × World
  | [] => ([], w)
  | e :: es =>
    let (first, w) := w.step e
    let (rest, w) := w.run es
    (first ++ rest, w)

/-- What happens next comes in order. -/
def Allows (w : World) (past : List Happening) : Happening → Prop
  | .opens c => c.id ∉ (openings past).map (·.id)
  | .closes c => c ∈ openings past ∧ c ∉ closings past
  | .asks o r => r.InOrder past (w.arbiter.under o)

/-- All that happens comes in order. -/
def Orderly (past : List Happening) (w : World) : List Happening → Prop
  | [] => True
  | e :: es => w.Allows past e ∧ Orderly (past ++ [e]) (w.step e).2 es

instance (w : World) (past : List Happening) (e : Happening) : Decidable (w.Allows past e) :=
  match e with
  | .opens _ => inferInstanceAs (Decidable (_ ∉ _))
  | .closes _ => inferInstanceAs (Decidable (_ ∧ _))
  | .asks o r => inferInstanceAs (Decidable (r.InOrder past (w.arbiter.under o)))

instance decidableOrderly (past : List Happening) (w : World) :
    (es : List Happening) → Decidable (Orderly past w es)
  | [] => inferInstanceAs (Decidable True)
  | e :: es =>
    have := decidableOrderly (past ++ [e]) (w.step e).2 es
    inferInstanceAs (Decidable (_ ∧ _))

theorem orderly_append :
    Orderly past w (es ++ es') ↔
      Orderly past w es ∧ Orderly (past ++ es) (w.run es).2 es' := by
  induction es generalizing past w with
  | nil => simp [Orderly, run]
  | cons e es ih =>
      simp only [List.cons_append, Orderly, ih, run, List.append_assoc, and_assoc,
        List.nil_append]

/-- What holds at first and is kept by everything that comes in order holds after a run. -/
theorem orderly_induction {P : List Happening → World → Prop} (h : Orderly past w es)
    (hw : P past w)
    (hstep : ∀ past w e, P past w → w.Allows past e → P (past ++ [e]) (w.step e).2) :
    P (past ++ es) (w.run es).2 := by
  induction es generalizing past w with
  | nil =>
      rw [List.append_nil]
      exact hw
  | cons e es ih =>
      obtain ⟨he, hes⟩ := h
      have h' := ih hes (hstep past w e hw he)
      rw [List.append_assoc] at h'
      exact h'

/-! ### What an orderly run keeps -/

/-- The open connections are those that opened and have not closed; numbers belong to one connection
each; and only connections that opened have closed or been announced. -/
structure Tidy (past : List Happening) (w : World) : Prop where
  keyed : w.arbiter.hall.Keyed
  opened_iff : ∀ c, w.opened.contains c = true ↔ c ∈ openings past ∧ c ∉ closings past
  unique : ∀ c d, c ∈ openings past → d ∈ openings past → c.id = d.id → c = d
  opened_of_closed : ∀ c, c ∈ closings past → c ∈ openings past
  opened_of_connected : ∀ c, .connect c ∈ requests past → c ∈ openings past

theorem tidy_new (supply : List MatchId) (budget : Duration) : Tidy [] (new supply budget) := by
  refine ⟨Arbiter.keyed_new _ _, ?_, ?_, ?_, ?_⟩
  · intro c
    constructor
    · intro h
      cases h
    · rintro ⟨h, -⟩
      cases h
  · intro c d hc
    cases hc
  · intro c hc
    cases hc
  · intro c hc
    cases hc

theorem Tidy.opens (h : Tidy past w) {c : Connection} (he : w.Allows past (.opens c)) :
    Tidy (past ++ [.opens c]) (w.step (.opens c)).2 := by
  have hnew : c ∉ openings past := fun hc => he (List.mem_map_of_mem hc)
  refine ⟨h.keyed, ?_, ?_, ?_, ?_⟩
  · intro d
    show (w.opened.insert c).contains d = true ↔ _
    rw [Connections.contains_insert, h.opened_iff, mem_openings_snoc, mem_closings_snoc]
    simp only [Happening.opening?, Happening.closing?, Option.some.injEq, reduceCtorEq,
      or_false]
    constructor
    · rintro (rfl | ⟨ho, hc⟩)
      · exact ⟨.inr rfl, fun hd => hnew (h.opened_of_closed _ hd)⟩
      · exact ⟨.inl ho, hc⟩
    · rintro ⟨ho | rfl, hc⟩
      · exact .inr ⟨ho, hc⟩
      · exact .inl rfl
  · intro d d' hd hd' hid
    rw [mem_openings_snoc] at hd hd'
    simp only [Happening.opening?, Option.some.injEq] at hd hd'
    rcases hd with hd | rfl
    · rcases hd' with hd' | rfl
      · exact h.unique d d' hd hd' hid
      · exact absurd (List.mem_map.mpr ⟨d, hd, hid⟩) he
    · rcases hd' with hd' | rfl
      · exact absurd (List.mem_map.mpr ⟨d', hd', hid.symm⟩) he
      · rfl
  · intro d hd
    rw [mem_closings_snoc] at hd
    simp only [Happening.closing?, reduceCtorEq, or_false] at hd
    exact mem_openings_snoc.mpr (.inl (h.opened_of_closed d hd))
  · intro d hd
    rw [mem_requests_snoc] at hd
    simp only [Happening.request?, reduceCtorEq, or_false] at hd
    exact mem_openings_snoc.mpr (.inl (h.opened_of_connected d hd))

theorem Tidy.closes (h : Tidy past w) {c : Connection} (he : w.Allows past (.closes c)) :
    Tidy (past ++ [.closes c]) (w.step (.closes c)).2 := by
  have hopen : ∀ d, d ∈ openings (past ++ [.closes c]) ↔ d ∈ openings past := by
    intro d
    rw [mem_openings_snoc]
    simp [Happening.opening?]
  refine ⟨h.keyed, ?_, ?_, ?_, ?_⟩
  · intro d
    show (w.opened.erase c).contains d = true ↔ _
    rw [Connections.contains_erase, h.opened_iff, hopen, mem_closings_snoc]
    simp only [Happening.closing?, Option.some.injEq, not_or]
    constructor
    · rintro ⟨hne, ho, hc⟩
      exact ⟨ho, hc, Ne.symm hne⟩
    · rintro ⟨ho, hc, hne⟩
      exact ⟨Ne.symm hne, ho, hc⟩
  · intro d d' hd hd'
    exact h.unique d d' ((hopen d).mp hd) ((hopen d').mp hd')
  · intro d hd
    rw [mem_closings_snoc] at hd
    simp only [Happening.closing?, Option.some.injEq] at hd
    rw [hopen]
    rcases hd with hd | rfl
    · exact h.opened_of_closed d hd
    · exact he.1
  · intro d hd
    rw [mem_requests_snoc] at hd
    simp only [Happening.request?, reduceCtorEq, or_false] at hd
    exact (hopen d).mpr (h.opened_of_connected d hd)

theorem Tidy.asks (h : Tidy past w) {o : Outage} {r : Request} (he : w.Allows past (.asks o r)) :
    Tidy (past ++ [.asks o r]) (w.step (.asks o r)).2 := by
  have hopen : ∀ d, d ∈ openings (past ++ [.asks o r]) ↔ d ∈ openings past := by
    intro d
    rw [mem_openings_snoc]
    simp [Happening.opening?]
  have hclose : ∀ d, d ∈ closings (past ++ [.asks o r]) ↔ d ∈ closings past := by
    intro d
    rw [mem_closings_snoc]
    simp [Happening.closing?]
  refine ⟨?_, ?_, ?_, ?_, ?_⟩
  · exact Arbiter.keyed_handle (a := w.arbiter.under o) h.keyed w.opened r
  · intro d
    rw [hopen, hclose]
    exact h.opened_iff d
  · intro d d' hd hd'
    exact h.unique d d' ((hopen d).mp hd) ((hopen d').mp hd')
  · intro d hd
    exact (hopen d).mpr (h.opened_of_closed d ((hclose d).mp hd))
  · intro d hd
    rw [mem_requests_snoc] at hd
    rw [hopen]
    rcases hd with hd | hd
    · exact h.opened_of_connected d hd
    · cases hd
      exact he.1

theorem Tidy.step (h : Tidy past w) (he : w.Allows past e) : Tidy (past ++ [e]) (w.step e).2 := by
  cases e with
  | opens c => exact h.opens he
  | closes c => exact h.closes he
  | asks o r => exact h.asks he

/-- A connection that is open belongs to the open connections of its user. -/
theorem Tidy.mem_openings (h : Tidy past w) {u : UserId} (hd : d ∈ w.opened.ofUser u) :
    d ∈ openings past :=
  ((h.opened_iff d).mp (Connections.mem_ofUser.mp hd).2).1

end World
end LiveChess
