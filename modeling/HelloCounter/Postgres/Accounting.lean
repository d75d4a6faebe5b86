import HelloCounter.Postgres.Calls
import Mathlib.Data.List.Count

/-! What row 1 counts.  Every `UPDATE` that takes effect belongs to one call; a call that returns a
count saw the row of exactly one of them, and the retry loop repeats an `UPDATE` whose row it did
not see, so the others are the ones whose rows never reached their call. -/

namespace HelloCounter.Postgres

open Effect Schedule

/-- A step of calls of `next_visitor_count`, each of some store. -/
abbrev Visit := Event PostgresCounterStore Label (Except CounterStoreError UInt64)

abbrev Visits := State Pg Server (Except CounterStoreError UInt64)

def visitNumber : Except CounterStoreError UInt64 → Option Int
  | .ok count => some count.toNat
  | .error _ => none

/-- The call whose `UPDATE` takes effect. -/
def Visit.effect (event : Visit) : Option Nat := (Event.advance event).map Prod.fst

def Visit.counted : Visit → Option Nat
  | .finish t (.ok _) => some t
  | _ => none

/-- The call that will not see the row of an `UPDATE` that took effect: its connection failed
after the commit, or the `UPDATE` ran after its connection had failed. -/
def Visit.unseen : Visit → Option Nat
  | .device (.lost t .update (.ok _)) | .device (.late t .update (.ok _)) => some t
  | _ => none

/-- One for a call that holds a count: on its way to the call, or about to be returned. -/
def inFlight : Option Int → Nat
  | some _ => 1
  | none => 0

def visitValue (row : Bigint) : Option Int := if 0 ≤ row.val then some row.val else none

theorem visitValue_eq (row : Bigint) : visitValue row = none ∨ visitValue row = some row.val := by
  unfold visitValue
  split
  · exact .inr rfl
  · exact .inl rfl

theorem visitNumber_row (row : Bigint) : visitNumber (u64TryFrom row) = visitValue row := by
  have hUpper := row.upper
  unfold u64TryFrom visitValue
  split
  · have hNat : (UInt64.ofNat row.val.toNat).toNat = row.val.toNat :=
      UInt64.toNat_ofNat_of_lt' (by show row.val.toNat < 2 ^ 64; omega)
    simp only [visitNumber, hNat]
    congr 1
    omega
  · rfl

theorem nextVisitorCount_counts (store : PostgresCounterStore) :
    Counts visitNumber visitValue store.nextVisitorCount := by
  refine ⟨u64TryFrom, visitNumber_row, (store.loop_follows 3 250).imp _ ?_⟩
  rintro _ ⟨error, rfl⟩
  rfl

variable {events : List Visit} {event : Visit} {s s' : Visits}

/-- Row 1 exists, and neither it nor a count in flight is negative. -/
structure Nonneg (s : Visits) : Prop where
  row : ∃ v, row1 s = some v ∧ 0 ≤ v.val
  held : ∀ t n, held visitNumber s t = some n → 0 ≤ n

theorem Nonneg.step (inv : Inv visitNumber visitValue s) (nonneg : Nonneg s)
    (step : Step PostgresCounterStore.nextVisitorCount device s event s') : Nonneg s' := by
  obtain ⟨v, hRow, hPos⟩ := nonneg.row
  refine ⟨?_, fun t n h => ?_⟩
  · obtain ⟨w, hRow', hLe⟩ := run_row1_le (Run.nil.snoc step) hRow
    exact ⟨w, hRow', by omega⟩
  · rw [held_step nextVisitorCount_counts inv step t] at h
    rcases heldAfter_old visitValue_eq step h with h | ⟨u, row, rfl, -, rfl⟩
    · exact nonneg.held t n h
    · rcases step_row1 step with ⟨_, next, w, hAdvance, hRow', hNext, -⟩ | ⟨hNone, -⟩
      · cases hAdvance
        obtain rfl : v = w := Option.some.inj (hRow.symm.trans hRow')
        omega
      · cases hNone

theorem held_commit {t : Nat} {sql : Sql} {result : Except DbFailure sql.Row}
    (step : Step PostgresCounterStore.nextVisitorCount device s
      (.device (.committed t sql result)) s') : held visitNumber s t = none := by
  cases step with
  | serve waits served =>
    cases served with
    | commit waiting => rw [held_call waits, waiting]; rfl
  | reply waits replied => cases replied
  | drift drifts => cases drifts

/-- An `UPDATE` that takes effect is one call's: the call gets a count in flight, and a count in
flight is returned or never seen. -/
theorem step_balance (inv : Inv visitNumber visitValue s) (nonneg : Nonneg s)
    (step : Step PostgresCounterStore.nextVisitorCount device s event s') (t : Nat) :
    (if event.effect = some t then 1 else 0) + inFlight (held visitNumber s t) =
      (if event.counted = some t then 1 else 0) + (if event.unseen = some t then 1 else 0) +
        inFlight (held visitNumber s' t) := by
  rw [held_step nextVisitorCount_counts inv step t]
  cases event with
  | start u store | drop u =>
    simp [Visit.effect, Event.advance, Visit.counted, Visit.unseen, heldAfter]
  | finish u result =>
    have hHeld : held visitNumber s u = visitNumber result := held_finish step
    have hEffect : Visit.effect (.finish u result) = none := rfl
    simp only [heldAfter, Function.update_apply, hEffect]
    by_cases ht : t = u
    · subst ht
      cases result <;> simp [Visit.counted, Visit.unseen, hHeld, visitNumber, inFlight]
    · cases result <;> simp [Visit.counted, Visit.unseen, ht, Ne.symm ht]
  | device label =>
    have hCounted : Visit.counted (.device label) = none := rfl
    simp only [hCounted, Visit.effect, Event.advance]
    rcases label with u | u | ⟨u, sql, result⟩ | ⟨u, sql, result⟩ | ⟨u, sql, result⟩ | ⟨u, sql⟩ |
      ⟨u, sql, result⟩ | u
    case committed =>
      have hHeld := held_commit step
      rcases sql with _ | _ | _ <;> rcases result with _ | row
      case update.ok =>
        simp only [Label.advance, Visit.unseen, heldAfter, Function.update_apply]
        by_cases ht : t = u
        · subst ht; simp [hHeld, inFlight]
        · simp [ht, Ne.symm ht]
      all_goals simp [Label.advance, Visit.unseen, heldAfter]
    case delivered =>
      rcases sql with _ | _ | _ <;> rcases result with _ | row
      case update.ok =>
        have hHeld : held visitNumber s u = some row.val := held_row step (.inl rfl)
        have hValue : visitValue row = some row.val := if_pos (nonneg.held u _ hHeld)
        simp only [Label.advance, Visit.unseen, heldAfter, Function.update_apply]
        by_cases ht : t = u
        · subst ht; simp [hHeld, hValue]
        · simp [ht]
      all_goals simp [Label.advance, Visit.unseen, heldAfter]
    case lost =>
      rcases sql with _ | _ | _ <;> rcases result with _ | row
      case update.ok =>
        have hHeld : held visitNumber s u = some row.val := held_row step (.inr rfl)
        simp only [Label.advance, Visit.unseen, heldAfter, Function.update_apply]
        by_cases ht : t = u
        · subst ht; simp [hHeld, inFlight]
        · simp [ht, Ne.symm ht]
      all_goals simp [Label.advance, Visit.unseen, heldAfter]
    case late =>
      rcases sql with _ | _ | _ <;> rcases result with _ | row <;>
        simp [Label.advance, Visit.unseen, heldAfter]
    all_goals simp [Label.advance, Visit.unseen, heldAfter]

def returned : Option (Task Pg (Except CounterStoreError UInt64)) → Nat
  | some (.finished (.ok _)) => 1
  | _ => 0

theorem step_returned (step : Step PostgresCounterStore.nextVisitorCount device s event s')
    (t : Nat) : returned (s'.tasks t) =
      returned (s.tasks t) + if event.counted = some t then 1 else 0 := by
  cases step with
  | @start u store fresh =>
    rw [State.set_tasks]
    by_cases ht : t = u
    · subst ht; simp [fresh, returned, Visit.counted]
    · simp [ht, Visit.counted]
  | serve waits served => simp [Visit.counted]
  | @reply u _ _ _ _ _ waits replied =>
    rw [State.set_tasks]
    by_cases ht : t = u
    · subst ht; simp [waits, returned, Visit.counted]
    · simp [ht, Visit.counted]
  | drift drifts => simp [Visit.counted]
  | @finish u result returns =>
    rw [State.set_tasks]
    by_cases ht : t = u
    · subst ht; cases result <;> simp [returns, returned, Visit.counted]
    · cases result <;> simp [ht, Ne.symm ht, Visit.counted]
  | drop waits released => exact released.elim

structure Balanced (v : Bigint) (events : List Visit) (s : Visits) : Prop where
  inv : Inv visitNumber visitValue s
  nonneg : Nonneg s
  row : ∃ w, row1 s = some w ∧ w.val = v.val + (events.filterMap Visit.effect).length
  balance : ∀ t, (events.filterMap Visit.effect).count t =
    (events.filterMap Visit.counted).count t + (events.filterMap Visit.unseen).count t +
      inFlight (held visitNumber s t)
  returned : ∀ t, (events.filterMap Visit.counted).count t = returned (s.tasks t)

theorem Balanced.start {db : Database} {v : Bigint} (hRow : db.row1 = some v) (hPos : 0 ≤ v.val) :
    Balanced v [] (State.idle (Server.quiet db)) :=
  ⟨Inv.idle db, ⟨⟨v, hRow, hPos⟩, fun _ _ h => nomatch h⟩, ⟨v, hRow, by simp⟩, fun _ => rfl,
    fun _ => rfl⟩

theorem Balanced.step {v : Bigint} (balanced : Balanced v events s)
    (step : Step PostgresCounterStore.nextVisitorCount device s event s') :
    Balanced v (events ++ [event]) s' := by
  obtain ⟨inv, nonneg, ⟨w, hRow, hVal⟩, balance, returned⟩ := balanced
  refine ⟨inv.step nextVisitorCount_counts step, nonneg.step inv step, ?_, fun t => ?_, fun t => ?_⟩
  · rcases step_row1 step with ⟨t, row, w', hAdvance, hRow', hNext, hAfter⟩ | ⟨hNone, hSame⟩
    · obtain rfl : w = w' := Option.some.inj (hRow.symm.trans hRow')
      refine ⟨row, hAfter, ?_⟩
      have hEffect : event.effect = some t := by rw [Visit.effect, hAdvance]; rfl
      simp [hEffect]
      omega
    · have hEffect : event.effect = none := by rw [Visit.effect, hNone]; rfl
      exact ⟨w, hSame w hRow, by simp [hEffect, hVal]⟩
  · have := step_balance inv nonneg step t
    have := balance t
    simp only [count_filterMap_snoc]
    omega
  · rw [count_filterMap_snoc, returned t, step_returned step t]

theorem run_balanced {db : Database} {v : Bigint} (hRow : db.row1 = some v) (hPos : 0 ≤ v.val)
    (run : Run PostgresCounterStore.nextVisitorCount device (State.idle (Server.quiet db))
      events s) : Balanced v events s := by
  induction run with
  | nil => exact .start hRow hPos
  | snoc _ step ih => exact ih.step step

/-- When all calls have finished, row 1 has grown by the number of calls that returned a count and
the number of `UPDATE`s that took effect without their row reaching a client; and each call advanced
it once if it returned a count, and once for each such `UPDATE` of its own. -/
theorem visits_accounted {db : Database} {v : Bigint} (hRow : db.row1 = some v) (hPos : 0 ≤ v.val)
    (run : Run PostgresCounterStore.nextVisitorCount device (State.idle (Server.quiet db))
      events s) (finished : s.AllFinished) :
    (∃ w, row1 s = some w ∧ w.val = v.val + (events.filterMap Visit.counted).length +
      (events.filterMap Visit.unseen).length) ∧
    (∀ t count, s.tasks t = some (.finished (.ok count)) →
      (events.filterMap Visit.effect).count t = 1 + (events.filterMap Visit.unseen).count t) ∧
    ∀ t error, s.tasks t = some (.finished (.error error)) →
      (events.filterMap Visit.effect).count t = (events.filterMap Visit.unseen).count t := by
  obtain ⟨-, -, ⟨w, hRow', hVal⟩, balance, hReturned⟩ := run_balanced hRow hPos run
  have landed : ∀ t, held visitNumber s t = none := by
    intro t
    cases hTask : s.tasks t with
    | none => simp only [held, hTask]
    | some task =>
      obtain ⟨value, rfl⟩ := finished t task hTask
      simp only [held, hTask]
  have hCount : ∀ t, (events.filterMap Visit.effect).count t =
      (events.filterMap Visit.counted ++ events.filterMap Visit.unseen).count t := by
    intro t
    rw [balance t, landed t, List.count_append]
    rfl
  refine ⟨⟨w, hRow', ?_⟩, fun t count hTask => ?_, fun t error hTask => ?_⟩
  · have hLength := (List.perm_iff_count.mpr hCount).length_eq
    rw [List.length_append] at hLength
    omega
  · rw [hCount t, List.count_append, hReturned t, hTask]
    rfl
  · rw [hCount t, List.count_append, hReturned t, hTask]
    exact Nat.zero_add _

/-! ### A reply that is lost -/

def initialDb : Database := (Database.mk none).init

/-- A call whose connection fails after the commit of its first `UPDATE`, and whose second `UPDATE`
succeeds. -/
def lostReply : List Visit :=
  [.start 0 ⟨"host=haproxy"⟩, .device (.connected 0),
    .device (.committed 0 .update (.ok Bigint.one)),
    .device (.lost 0 .update (.ok Bigint.one)), .device (.refused 0),
    .device (.slept 0), .device (.connected 0),
    .device (.committed 0 .update (.ok Bigint.two)),
    .device (.delivered 0 .update (.ok Bigint.two)), .finish 0 (.ok 2)]

theorem lostReply_run : ∃ s, Run PostgresCounterStore.nextVisitorCount device
    (State.idle (Server.quiet initialDb)) lostReply s ∧ s.AllFinished ∧
    row1 s = some Bigint.two := by
  refine ⟨_, .head (.start _ (by rfl)) <|
    .head (.reply (by rfl) .connected) <|
    .head (.serve (by rfl) (.commit_eq (by rfl) (by rfl))) <|
    .head (.reply (by rfl) (.lost "connection closed" (by rfl))) <|
    .head (.reply (by rfl) (.refused "connection refused")) <|
    .head (.reply (by rfl) .slept) <|
    .head (.reply (by rfl) .connected) <|
    .head (.serve (by rfl) (.commit_eq (by rfl) (by rfl))) <|
    .head (.reply (by rfl) (.delivered (by rfl))) <|
    .head (.finish (by rfl)) .nil, ?_, by rfl⟩
  intro t task hTask
  by_cases ht : t = 0
  · subst ht
    exact ⟨_, (Option.some.inj hTask).symm⟩
  · simp [State.set_tasks, ht, State.idle] at hTask

theorem visit_counted_twice : ¬∀ (db : Database) (v : Bigint) (events : List Visit) (s : Visits),
    db.row1 = some v → 0 ≤ v.val → v.val + events.length < 2 ^ 63 - 1 →
    Run PostgresCounterStore.nextVisitorCount device (State.idle (Server.quiet db)) events s →
    s.AllFinished →
    ∃ w, row1 s = some w ∧ w.val = v.val + (events.filterMap Visit.counted).length := by
  intro h
  obtain ⟨s, run, finished, hRow⟩ := lostReply_run
  obtain ⟨w, hRow', hVal⟩ := h initialDb .zero lostReply s (by rfl) (by decide) (by decide) run
    finished
  cases hRow.symm.trans hRow'
  exact absurd hVal (by decide)

theorem lostReply_accounted : ∃ s : Visits, row1 s = some Bigint.two ∧
    (∃ w, row1 s = some w ∧ w.val = Bigint.zero.val +
      (lostReply.filterMap Visit.counted).length + (lostReply.filterMap Visit.unseen).length) := by
  obtain ⟨s, run, finished, hRow⟩ := lostReply_run
  exact ⟨s, hRow, (visits_accounted (by rfl) (by decide) run finished).1⟩

end HelloCounter.Postgres
