import HelloCounter.Library.Tickets
import HelloCounter.Postgres.System

/-! Calls that count, as customers of a ticket dispenser.  A call that counts ends as soon as a row
of the `UPDATE` reaches it, so it holds a number from the commit of that row until it returns, and
row 1 is the dispenser's top. -/

namespace HelloCounter.Postgres

open Effect Schedule

variable {ι α : Type} {program : ι → Prog Pg α} {s s' : State Pg Server α}

section

variable (number : α → Option Int) (value : Bigint → Option Int)

/-- A row of the `UPDATE` ends `p` with a result of number `value row`, and `p` returns no number
otherwise. -/
def Counts (p : Prog Pg α) : Prop :=
  ∃ f : Bigint → α, (∀ row, number (f row) = value row) ∧
    p.Follows (rowValue f) fun result => number result = none

def wireNumber : Option (Σ sql : Sql, Except DbFailure sql.Row) → Option Int
  | some ⟨.update, .ok row⟩ => some row.val
  | _ => none

/-- The number that a task holds: of its result, or of the row on the way to it. -/
def held (s : State Pg Server α) (t : Nat) : Option Int :=
  match s.tasks t with
  | some (.running (.ret result)) => number result
  | some (.running (.call _ _)) => wireNumber (s.shared.wire t)
  | _ => none

/-- The numbers that the tasks hold after an event. -/
def heldAfter (holds : Nat → Option Int) : Event ι Label α → Nat → Option Int
  | .device (.committed t .update (.ok row)) => Function.update holds t (some row.val)
  | .device (.delivered t .update (.ok row)) => Function.update holds t (value row)
  | .device (.lost t .update (.ok _)) => Function.update holds t none
  | .finish t _ => Function.update holds t none
  | _ => holds

/-- Results on the wire are waited for, and every task counts until a row ends it. -/
structure Inv (s : State Pg Server α) : Prop where
  waiting : Waiting s
  counts : ∀ t p, s.tasks t = some (.running p) →
    Counts number value p ∨ ∃ result row, p = .ret result ∧ number result = value row

end

variable {number : α → Option Int} {value : Bigint → Option Int}

theorem held_call {t : Nat} {op : Op} {next : op.Reply → Prog Pg α}
    (h : s.tasks t = some (.running (.call op next))) :
    held number s t = wireNumber (s.shared.wire t) := by
  simp only [held, h]

theorem held_congr {t : Nat} (hTask : s'.tasks t = s.tasks t)
    (hWire : s'.shared.wire t = s.shared.wire t) : held number s' t = held number s t := by
  simp only [held, hTask, hWire]

theorem Counts.held_eq_none {p : Prog Pg α} (counts : Counts number value p) {t : Nat}
    (hTask : s.tasks t = some (.running p)) (hWire : s.shared.wire t = none) :
    held number s t = none := by
  cases p with
  | ret result =>
    obtain ⟨_, _, hNone⟩ := counts
    simp only [held, hTask]
    exact hNone
  | call op next => rw [held_call hTask, hWire]; rfl

theorem Counts.reply {op : Op} {next : op.Reply → Prog Pg α}
    (counts : Counts number value (.call op next)) (reply : op.Reply) :
    Counts number value (next reply) ∨
      ∃ result row, next reply = .ret result ∧ number result = value row := by
  obtain ⟨f, hf, follows⟩ := counts
  cases hRow : rowValue f op reply with
  | none => exact .inl ⟨f, hf, follows.next hRow⟩
  | some result =>
    obtain ⟨row, rfl⟩ : ∃ row, result = f row := by
      unfold rowValue at hRow
      split at hRow
      · exact ⟨_, (Option.some.inj hRow).symm⟩
      · cases hRow
    exact .inr ⟨f row, row, follows.ended hRow, hf row⟩

theorem Inv.counts_call (inv : Inv number value s) {t : Nat} {op : Op}
    {next : op.Reply → Prog Pg α} (waits : s.tasks t = some (.running (.call op next))) :
    Counts number value (.call op next) := by
  rcases inv.counts t _ waits with counts | ⟨_, _, hRet, _⟩
  · exact counts
  · cases hRet

theorem Inv.idle (db : Database) :
    Inv number value (State.idle (Server.quiet db) : State Pg Server α) :=
  ⟨fun _ _ _ h => (nomatch h), fun _ _ h => (nomatch h)⟩

theorem Inv.step (hProgram : ∀ job, Counts number value (program job))
    {event : Event ι Label α} (inv : Inv number value s)
    (step : Step program device s event s') : Inv number value s' := by
  refine ⟨inv.waiting.step step, fun u p h => ?_⟩
  cases step with
  | start job fresh =>
    rw [State.set_tasks] at h
    split at h
    · cases h; exact .inl (hProgram job)
    · exact inv.counts u p h
  | serve waits served => exact inv.counts u p h
  | @reply t op next reply label shared waits replied =>
    rw [State.set_tasks] at h
    split at h
    · cases h; exact (inv.counts_call waits).reply reply
    · exact inv.counts u p h
  | drift drifts => exact inv.counts u p h
  | finish returns =>
    rw [State.set_tasks] at h
    split at h
    · cases h
    · exact inv.counts u p h
  | drop waits released => exact released.elim

theorem run_inv (hProgram : ∀ job, Counts number value (program job)) {db : Database}
    {events : List (Event ι Label α)}
    (run : Run program device (State.idle (Server.quiet db)) events s) : Inv number value s := by
  induction run with
  | nil => exact Inv.idle db
  | snoc _ step ih => exact ih.step hProgram step

theorem Inv.finish {t : Nat} {result : α} (inv : Inv number value s)
    (step : Step program device s (.finish t result) s') :
    number result = none ∨ ∃ row, number result = value row := by
  cases step with
  | finish returns =>
    rcases inv.counts t _ returns with ⟨_, _, hNone⟩ | ⟨_, row, hRet, hRow⟩
    · exact .inl hNone
    · cases hRet
      exact .inr ⟨row, hRow⟩

/-! ### The number held across one step -/

theorem held_start {t : Nat} {job : ι}
    (step : Step program device s (.start t job) s') : held number s t = none := by
  cases step with
  | start job fresh => simp only [held, fresh]

theorem held_finish {t : Nat} {result : α} (step : Step program device s (.finish t result) s') :
    held number s t = number result := by
  cases step with
  | finish returns => simp only [held, returns]

theorem heldAfter_of_ne {holds : Nat → Option Int} {label : Label} {u : Nat}
    (hu : u ≠ label.task) :
    heldAfter value holds (.device label : Event ι Label α) u = holds u := by
  cases label with
  | committed t sql result | delivered t sql result | lost t sql result =>
    cases sql <;> cases result <;> first | rfl | exact Function.update_of_ne hu ..
  | _ => rfl

theorem held_row {t : Nat} {row : Bigint} {event : Event ι Label α}
    (step : Step program device s event s')
    (hEvent : event = .device (.delivered t .update (.ok row)) ∨
      event = .device (.lost t .update (.ok row))) : held number s t = some row.val := by
  cases step with
  | reply waits replied =>
    cases replied with
    | delivered arrived =>
      rcases hEvent with h | h <;> cases h
      rw [held_call waits, arrived]
      rfl
    | lost text arrived =>
      rcases hEvent with h | h <;> cases h
      rw [held_call waits, arrived]
      rfl
    | _ => rcases hEvent with h | h <;> cases h
  | serve waits served => cases served; rcases hEvent with h | h <;> cases h
  | drift drifts => cases drifts; rcases hEvent with h | h <;> cases h
  | start job fresh => rcases hEvent with h | h <;> cases h
  | finish returns => rcases hEvent with h | h <;> cases h
  | drop waits released => rcases hEvent with h | h <;> cases h

theorem held_step (hProgram : ∀ job, Counts number value (program job)) {event : Event ι Label α}
    (inv : Inv number value s) (step : Step program device s event s') (u : Nat) :
    held number s' u = heldAfter value (held number s) event u := by
  have inv' := inv.step hProgram step
  cases step with
  | @start t job fresh =>
    by_cases hu : u = t
    · subst hu
      have hWire : s.shared.wire u = none := by
        cases hWire : s.shared.wire u with
        | none => rfl
        | some content =>
          obtain ⟨_, hTask⟩ := inv.waiting u _ _ hWire
          rw [fresh] at hTask
          cases hTask
      rw [(hProgram job).held_eq_none (State.set_tasks_same ..) hWire]
      simp only [heldAfter, held, fresh]
    · exact held_congr (by rw [State.set_tasks, if_neg hu]) rfl
  | @serve t op next label shared waits served =>
    cases served with
    | @commit sql _ free =>
      by_cases hu : u = t
      · subst hu
        generalize (s.shared.db.exec sql).1 = result
        rcases sql with _ | _ | _ <;> cases result <;>
          simp [heldAfter, held, waits, free, Server.setWire_wire, wireNumber]
      · rw [heldAfter_of_ne hu]
        exact held_congr rfl (by rw [Server.setWire_wire, if_neg hu])
  | @reply t op next reply label shared waits replied =>
    have hWire := reply_wire inv.waiting waits replied
    have hTask : label.task = t := by cases replied <;> rfl
    by_cases hu : u = t
    · subst hu
      have hWire' : shared.wire u = none := (hWire u).trans (if_pos rfl)
      obtain ⟨f, hf, follows⟩ := inv.counts_call waits
      -- A reply that is no row leaves a call that holds nothing.
      have silent : rowValue f op reply = none → held number
          (({ s with shared } : State Pg Server α).set u (.running (next reply))) u = none :=
        fun hRow => Counts.held_eq_none ⟨f, hf, follows.next hRow⟩ (State.set_tasks_same ..) hWire'
      have idle : s.shared.wire u = none → held number s u = none := fun h => by
        rw [held_call waits, h]
        rfl
      cases replied with
      | connected => exact (silent rfl).trans (idle hWire').symm
      | refused text => exact (silent rfl).trans (idle hWire').symm
      | @delivered sql result _ arrived =>
        have hOld : held number s u = wireNumber (some ⟨sql, result⟩) := by
          rw [held_call waits, arrived]
        cases sql with
        | update =>
          cases result with
          | error failure => exact (silent rfl).trans hOld.symm
          | ok row =>
            have hNext : next (.ok row) = .ret (f row) := follows.ended rfl
            simp only [heldAfter, Function.update_self, held, State.set_tasks_same]
            rw [show next (Except.mapError PgError.statement (.ok row)) = .ret (f row) from hNext]
            exact hf row
        | init => exact (silent rfl).trans hOld.symm
        | selectOne => exact (silent rfl).trans hOld.symm
      | @lost sql result _ text arrived =>
        have hOld : held number s u = wireNumber (some ⟨sql, result⟩) := by
          rw [held_call waits, arrived]
        have hNone : rowValue f (.exec sql) (.error (.connection text)) = none := by
          cases sql <;> rfl
        rw [silent hNone]
        rcases sql with _ | _ | _ <;> cases result <;> simp [heldAfter, hOld, wireNumber]
      | @aborted sql _ text waiting =>
        have hNone : rowValue f (.exec sql) (.error (.connection text)) = none := by
          cases sql <;> rfl
        exact (silent hNone).trans (idle hWire').symm
      | slept => exact (silent rfl).trans (idle hWire').symm
    · rw [heldAfter_of_ne (hTask ▸ hu)]
      exact held_congr (by rw [State.set_tasks, if_neg hu]) ((hWire u).trans (if_neg hu))
  | drift drifts =>
    cases drifts
    exact held_congr rfl rfl
  | @finish t result returns =>
    by_cases hu : u = t
    · subst hu
      simp [heldAfter, held]
    · rw [heldAfter, Function.update_of_ne hu]
      exact held_congr (by rw [State.set_tasks, if_neg hu]) rfl
  | drop waits released => exact released.elim

/-! ### The dispenser -/

/-- Row 1 as the top of a dispenser whose customers are the tasks. -/
def dispenser (number : α → Option Int) (s : State Pg Server α) : Tickets.Dispenser Int where
  top := match row1 s with
    | none => ⊥
    | some v => (v.val : WithBot Int)
  held := held number s

def ticketEvent (number : α → Option Int) : Event ι Label α → Tickets.Event Int
  | .start t _ => .arrive t
  | .finish t result =>
    match number result with
    | some n => .shown t n
    | none => .quiet
  | _ => .quiet

theorem dispenser_top_le {event : Event ι Label α} (step : Step program device s event s') :
    (dispenser number s).top ≤ (dispenser number s').top := by
  unfold dispenser
  cases hRow : row1 s with
  | none => exact bot_le
  | some v =>
    obtain ⟨w, hw, hvw⟩ := run_row1_le (Run.nil.snoc step) hRow
    rw [hw]
    exact WithBot.coe_le_coe.mpr hvw

theorem heldAfter_old (hValue : ∀ row, value row = none ∨ value row = some row.val)
    {event : Event ι Label α} (step : Step program device s event s') {u : Nat} {n : Int}
    (h : heldAfter value (held number s) event u = some n) :
    held number s u = some n ∨
      ∃ t row, event = .device (.committed t .update (.ok row)) ∧ u = t ∧ n = row.val := by
  unfold heldAfter at h
  split at h
  · next t row =>
    rw [Function.update_apply] at h
    split at h
    · next hu => exact .inr ⟨t, row, rfl, hu, (Option.some.inj h).symm⟩
    · exact .inl h
  · next t row =>
    rw [Function.update_apply] at h
    split at h
    · next hu =>
      subst hu
      rcases hValue row with hv | hv
      · rw [hv] at h; cases h
      · rw [← h, hv]; exact .inl (held_row step (.inl rfl))
    · exact .inl h
  · rw [Function.update_apply] at h
    split at h
    · cases h
    · exact .inl h
  · rw [Function.update_apply] at h
    split at h
    · cases h
    · exact .inl h
  · exact .inl h

theorem step_tickets (hProgram : ∀ job, Counts number value (program job))
    (hValue : ∀ row, value row = none ∨ value row = some row.val) {event : Event ι Label α}
    (inv : Inv number value s) (step : Step program device s event s') :
    Tickets.Step (dispenser number s) (ticketEvent number event) (dispenser number s') := by
  have hTop : (dispenser number s).top ≤ (dispenser number s').top := dispenser_top_le step
  have hHeld : ∀ u n, held number s' u = some n → held number s u = some n ∨
      ∃ t row, event = .device (.committed t .update (.ok row)) ∧ u = t ∧ n = row.val :=
    fun u n h => heldAfter_old hValue step ((held_step hProgram inv step u).symm.trans h)
  by_cases hCommit : ∃ t row, event = .device (.committed t .update (.ok row))
  · obtain ⟨t, row, rfl⟩ := hCommit
    rcases step_row1 step with ⟨_, next, v, hAdvance, hRow, hNext, hRow'⟩ | ⟨hNone, _⟩
    · cases hAdvance
      refine .draw t row.val ?_ ?_ ?_
      · simp only [dispenser, hRow]
        exact WithBot.coe_lt_coe.mpr (by omega)
      · simp only [dispenser, hRow']
      · intro u m h
        rcases hHeld u m h with h | ⟨_, _, hEq, hu, hm⟩
        · exact .inl h
        · cases hEq
          exact .inr ⟨hu, hm⟩
    · cases hNone
  · have quiet : Tickets.Quiet (dispenser number s) (dispenser number s') := by
      refine ⟨hTop, fun u n h => ?_⟩
      rcases hHeld u n h with h | ⟨t, row, hEq, _⟩
      · exact h
      · exact absurd ⟨t, row, hEq⟩ hCommit
    cases event with
    | start t job => exact .arrive (held_start step) quiet
    | device label => exact .quiet quiet
    | drop t => exact .quiet quiet
    | finish t result =>
      have hStep := held_step hProgram inv step t
      rw [heldAfter, Function.update_self] at hStep
      have hFinish : held number s t = number result := held_finish step
      simp only [ticketEvent]
      cases hn : number result with
      | some n => exact .shown (hFinish.trans hn) hStep quiet
      | none => exact .quiet quiet

theorem run_tickets (hProgram : ∀ job, Counts number value (program job))
    (hValue : ∀ row, value row = none ∨ value row = some row.val) {db : Database}
    {events : List (Event ι Label α)}
    (run : Run program device (State.idle (Server.quiet db)) events s) :
    Tickets.Run (dispenser number (State.idle (Server.quiet db)))
      (events.map (ticketEvent number)) (dispenser number s) := by
  induction run with
  | nil => exact .nil
  | snoc run step ih =>
    rw [List.map_append]
    exact ih.snoc (step_tickets hProgram hValue (run_inv hProgram run) step)

theorem run_finish (hProgram : ∀ job, Counts number value (program job)) {db : Database}
    {events : List (Event ι Label α)}
    (run : Run program device (State.idle (Server.quiet db)) events s) {t : Nat} {result : α}
    (h : .finish t result ∈ events) : number result = none ∨ ∃ row, number result = value row := by
  induction run with
  | nil => cases h
  | snoc run step ih =>
    rcases List.mem_append.mp h with h | h
    · exact ih h
    · cases List.mem_singleton.mp h
      exact (run_inv hProgram run).finish step

end HelloCounter.Postgres
