import LiveChess.Hall
import LiveChess.Proofs.Followers
import LiveChess.Proofs.GameSteps

/-! # The steps of a table

A step of a table is a step of its game that is saved before it counts.  Either it is refused, and
then table and records are as before (`refused`), or the game makes the step and the store keeps
the record of the game it leads to (`done`).  Joins and moves end in one of these two ways
(`join_steps`, `move_steps`), and how they end depends on nothing but the game, the name and the
budget of the table, the records and the outage of the store (`Alike.join`, `Alike.move`). -/

namespace LiveChess

namespace Store

variable {s : Store} {id : MatchId} {r : MatchRecord} {budget : Duration}

/-- A save keeps the record or changes nothing but the count of calls. -/
theorem save_cases (s : Store) (id : MatchId) (r : MatchRecord) (budget : Duration) :
    (∃ e, s.save id r budget = (.error e, { s with saves := s.saves + 1 })) ∨
      s.save id r budget =
        (.ok (), { s with saves := s.saves + 1, records := s.records.insert id r }) := by
  unfold save
  cases hindrance (s.outage.save id) budget with
  | some e => exact .inl ⟨e, rfl⟩
  | none =>
      simp only
      split_ifs
      · exact .inr rfl
      · exact .inl ⟨_, rfl⟩

theorem save_congr {s s' : Store} (ho : s.outage = s'.outage) (hr : s.records = s'.records)
    (id : MatchId) (r : MatchRecord) (budget : Duration) :
    (s.save id r budget).1 = (s'.save id r budget).1 ∧
      (s.save id r budget).2.records = (s'.save id r budget).2.records := by
  unfold save
  rw [ho, hr]
  cases hindrance (s'.outage.save id) budget with
  | some e => exact ⟨rfl, rfl⟩
  | none =>
      simp only
      split_ifs
      · exact ⟨rfl, rfl⟩
      · exact ⟨rfl, rfl⟩

end Store

namespace Table

variable {α : Type} {t t' : Table} {s s' : Store} {u : UserId}

/-- How a step of the table's game may end. -/
inductive Stepped (t : Table) (s : Store) (step : Except Refusal (α × Game)) :
    Except Refusal α × Table × Store → Prop where
  | refused (e : Refusal) (saves : Nat) : Stepped t s step (.error e, t, { s with saves := saves })
  | done (a : α) (next : Game) (h : step = .ok (a, next)) : Stepped t s step
      (.ok a, { t with game := next },
        { s with saves := s.saves + 1, records := s.records.insert t.id next.toRecord })

theorem commit_cases (t : Table) (next : Game) (s : Store) :
    (∃ e, t.commit next s = (.error e, t, { s with saves := s.saves + 1 })) ∨
      t.commit next s = (.ok (), { t with game := next },
        { s with saves := s.saves + 1, records := s.records.insert t.id next.toRecord }) := by
  unfold commit
  rcases s.save_cases t.id next.toRecord t.budget with ⟨e, h⟩ | h
  · rw [h]
    exact .inl ⟨_, rfl⟩
  · rw [h]
    exact .inr rfl

/-- Try a step of the game and save where it leads. -/
def attempt (t : Table) (s : Store) (step : Except Refusal (α × Game)) :
    Except Refusal α × Table × Store :=
  match step with
  | .error e => (.error e, t, s)
  | .ok (a, next) =>
    match t.commit next s with
    | (.ok (), t, s) => (.ok a, t, s)
    | (.error e, t, s) => (.error e, t, s)

theorem join_eq_attempt (t : Table) (u : UserId) (s : Store) :
    t.join u s = t.attempt s (t.game.join u) := by
  unfold join attempt
  cases t.game.join u <;> rfl

theorem move_eq_attempt (t : Table) (u : UserId) (source target : Square) (s : Store) :
    t.move u source target s = t.attempt s (t.game.move u source target) := by
  unfold move attempt
  cases t.game.move u source target <;> rfl

theorem attempt_steps (t : Table) (s : Store) (step : Except Refusal (α × Game)) :
    Stepped t s step (t.attempt s step) := by
  unfold attempt
  cases step with
  | error e => exact .refused e s.saves
  | ok r =>
      obtain ⟨a, next⟩ := r
      rcases t.commit_cases next s with ⟨e, hc⟩ | hc
      · simp only [hc]
        exact .refused e _
      · simp only [hc]
        exact .done a next rfl

theorem join_steps (t : Table) (u : UserId) (s : Store) :
    Stepped t s (t.game.join u) (t.join u s) :=
  t.join_eq_attempt u s ▸ t.attempt_steps s _

theorem move_steps (t : Table) (u : UserId) (source target : Square) (s : Store) :
    Stepped t s (t.game.move u source target) (t.move u source target s) :=
  t.move_eq_attempt u source target s ▸ t.attempt_steps s _

/-! ### Followers -/

theorem connectAll_eq (t : Table) (cs : List Connection) :
    t.connectAll cs = { t with followers := cs.foldl Connections.insert t.followers } := by
  induction cs generalizing t with
  | nil => rfl
  | cons c cs ih => exact ih (t.connect c)

theorem connectAll_game (t : Table) (cs : List Connection) : (t.connectAll cs).game = t.game := by
  rw [connectAll_eq]

theorem connectAll_id (t : Table) (cs : List Connection) : (t.connectAll cs).id = t.id := by
  rw [connectAll_eq]

theorem connectAll_serial (t : Table) (cs : List Connection) :
    (t.connectAll cs).serial = t.serial := by
  rw [connectAll_eq]

theorem contains_connectAll {cs : List Connection} {c : Connection} :
    (t.connectAll cs).followers.contains c = true ↔ c ∈ cs ∨ t.followers.contains c = true := by
  rw [connectAll_eq]
  exact Connections.contains_insertAll

/-! ### What a step depends on -/

/-- Tables of one match in the same state, with the same records behind them. -/
structure Alike (t t' : Table) (s s' : Store) : Prop where
  id : t.id = t'.id
  budget : t.budget = t'.budget
  game : t.game = t'.game
  records : s.records = s'.records

theorem Alike.commit (h : Alike t t' s s') (ho : s.outage = s'.outage) (next : Game) :
    (t.commit next s).1 = (t'.commit next s').1 ∧
      Alike (t.commit next s).2.1 (t'.commit next s').2.1
        (t.commit next s).2.2 (t'.commit next s').2.2 := by
  obtain ⟨h1, h2⟩ := Store.save_congr ho h.records t.id next.toRecord t.budget
  unfold Table.commit
  rw [← h.id, ← h.budget]
  revert h1 h2
  generalize s.save t.id next.toRecord t.budget = x
  generalize s'.save t.id next.toRecord t.budget = y
  obtain ⟨r, x⟩ := x
  obtain ⟨r', y⟩ := y
  rintro rfl hr
  cases r with
  | error e => exact ⟨rfl, h.id, h.budget, h.game, hr⟩
  | ok v => exact ⟨rfl, rfl, rfl, rfl, hr⟩

theorem Alike.attempt (h : Alike t t' s s') (ho : s.outage = s'.outage)
    (step : Except Refusal (α × Game)) :
    (t.attempt s step).1 = (t'.attempt s' step).1 ∧
      Alike (t.attempt s step).2.1 (t'.attempt s' step).2.1
        (t.attempt s step).2.2 (t'.attempt s' step).2.2 := by
  unfold Table.attempt
  cases step with
  | error e => exact ⟨rfl, h⟩
  | ok r =>
      obtain ⟨a, next⟩ := r
      obtain ⟨h1, h2⟩ := h.commit ho next
      revert h1 h2
      simp only
      generalize t.commit next s = x
      generalize t'.commit next s' = y
      obtain ⟨v, x⟩ := x
      obtain ⟨v', y⟩ := y
      rintro rfl hr
      cases v with
      | error e => exact ⟨rfl, hr⟩
      | ok v => exact ⟨rfl, hr⟩

theorem Alike.join (h : Alike t t' s s') (ho : s.outage = s'.outage) (u : UserId) :
    (t.join u s).1 = (t'.join u s').1 ∧
      Alike (t.join u s).2.1 (t'.join u s').2.1 (t.join u s).2.2 (t'.join u s').2.2 := by
  rw [join_eq_attempt, join_eq_attempt, ← h.game]
  exact h.attempt ho _

theorem Alike.move (h : Alike t t' s s') (ho : s.outage = s'.outage) (u : UserId)
    (source target : Square) :
    (t.move u source target s).1 = (t'.move u source target s').1 ∧
      Alike (t.move u source target s).2.1 (t'.move u source target s').2.1
        (t.move u source target s).2.2 (t'.move u source target s').2.2 := by
  rw [move_eq_attempt, move_eq_attempt, ← h.game]
  exact h.attempt ho _

end Table
end LiveChess
