import HelloCounter.Http.Requests
import HelloCounter.Library.Budget
import HelloCounter.Postgres.Uniqueness

/-! Any number of server processes on one primary, each starting up and serving any requests.  Only
page views in counter mode move the counter, each at most four times, and no other row of the table
ever changes. -/

namespace HelloCounter.Postgres

open Effect Schedule Http

/-- A server process over the store. -/
structure Process where
  mode : GreetingMode
  serverLabel : HeaderValue
  store : PostgresCounterStore

def Process.router (process : Process) : Router Pg :=
  ⟨{ service := { mode := process.mode, counterStore := process.store.port },
     serverLabel := process.serverLabel }⟩

/-- What the processes do with the database. -/
inductive Work where
  | startUp (config : PostgresCounterStoreConfig)
  | exchange (process : Process) (request : Request)

namespace Work

def program : Work → Prog Pg Outcome
  | startUp config => do return .connected (← PostgresCounterStore.connect config)
  | exchange process request => do return .response (← process.router.handle request)

def isPageView : Work → Bool
  | startUp _ => false
  | exchange process request => process.mode == .counter && request.isPageView

/-- The `UPDATE`s that the work may send. -/
def updates (work : Work) : Nat := if work.isPageView then 4 else 0

end Work

def isUpdate : Op → Bool
  | .exec .update => true
  | _ => false

/-! ### The `UPDATE`s of one task -/

theorem PostgresCounterStore.attempt_spends (store : PostgresCounterStore) :
    store.attempt.Spends isUpdate 1 := by
  intro reply
  cases reply with
  | error error => trivial
  | ok _ => exact ⟨Nat.one_pos, fun _ => trivial⟩

theorem PostgresCounterStore.recover_spends (store : PostgresCounterStore) :
    store.recover.Spends isUpdate 0 := by
  intro reply
  cases reply with
  | error error => trivial
  | ok _ => exact fun _ => trivial

theorem PostgresCounterStore.loop_spends (store : PostgresCounterStore) (retries delay : Nat) :
    (store.loop retries delay).Spends isUpdate (1 + retries) := by
  induction retries generalizing delay with
  | zero =>
    rw [loop]
    refine store.attempt_spends.bind (n := 0) fun result => ?_
    cases result <;> trivial
  | succ retries ih =>
    rw [loop]
    refine store.attempt_spends.bind fun result => ?_
    cases result with
    | ok row => trivial
    | error error =>
      have again : ∀ _ : Unit, (sleep delay >>= fun _ => store.loop retries (delay * 2)).Spends
          isUpdate (1 + retries) := fun _ _ => ih (delay * 2)
      exact (store.recover_spends.bind again).mono (by omega)

theorem PostgresCounterStore.connect_spends (config : PostgresCounterStoreConfig) :
    (PostgresCounterStore.connect config).Spends isUpdate 0 := by
  intro reply
  cases reply with
  | error error => trivial
  | ok _ =>
    intro reply
    cases reply <;> trivial

theorem PostgresCounterStore.health_spends (store : PostgresCounterStore) :
    store.health.Spends isUpdate 0 := by
  intro reply
  cases reply with
  | error error => trivial
  | ok _ =>
    intro reply
    cases reply <;> trivial

theorem Work.program_spends (work : Work) : work.program.Spends isUpdate work.updates := by
  cases work with
  | startUp config => exact (PostgresCounterStore.connect_spends config).map _
  | exchange process request =>
    refine Prog.Spends.map ?_ Outcome.response
    have asks := handle_asks process.router request
    generalize process.router.handle request = p at asks
    cases asks with
    | count mode views shape status =>
      have hUpdates : (Work.exchange process request).updates = 4 := by
        have hMode : process.mode = .counter := mode
        simp [Work.updates, Work.isPageView, hMode, views]
      rw [hUpdates]
      exact (process.store.loop_spends 3 250).map _
    | health views shape status => exact (process.store.health_spends.mono (Nat.zero_le _)).map _
    | nothing response status => trivial

/-! ### The `UPDATE`s that run -/

section

variable {ι α : Type} {program : ι → Prog Pg α} {s s' : State Pg Server α}
  {event : Event ι Label α} {events : List (Event ι Label α)}

/-- The task whose `UPDATE` the primary runs. -/
def Event.executed : Event ι Label α → Option Nat
  | .device (.committed t .update _) | .device (.late t .update _) => some t
  | _ => none

/-- The tasks whose `UPDATE`s took effect, one entry for each `UPDATE`. -/
def advances (events : List (Event ι Label α)) : List Nat :=
  (events.filterMap Event.advance).map Prod.fst

theorem executed_of_advance {t : Nat} {row : Bigint} (h : Event.advance event = some (t, row)) :
    Event.executed event = some t := by
  rcases event with _ | label | _ | _ <;> try cases h
  rcases label with _ | _ | ⟨u, sql, result⟩ | ⟨u, sql, result⟩ | ⟨u, sql, result⟩ | ⟨u, sql⟩ |
    ⟨u, sql, result⟩ | _ <;> try cases h
  all_goals rcases sql with _ | _ | _ <;> try cases h
  all_goals rcases result with _ | _ <;> cases h
  all_goals rfl

theorem advances_count_le (events : List (Event ι Label α)) (t : Nat) :
    (advances events).count t ≤ (events.filterMap Event.executed).count t := by
  induction events with
  | nil => exact Nat.le_refl 0
  | cons event events ih =>
    cases hAdvance : Event.advance event with
    | none =>
      refine Nat.le_trans (Nat.le_of_eq ?_) (ih.trans ?_)
      · simp only [advances, List.filterMap_cons, hAdvance]
      · exact ((List.sublist_cons_self event events).filterMap _).count_le t
    | some advance =>
      have hExecuted := executed_of_advance hAdvance
      simp only [advances, List.filterMap_cons, hAdvance, hExecuted, List.map_cons,
        List.count_cons] at ih ⊢
      exact Nat.add_le_add_right ih _

/-- One while the result of a task's `UPDATE` is on the wire. -/
def onWire (server : Server) (t : Nat) : Nat :=
  match server.wire t with
  | some ⟨.update, _⟩ => 1
  | _ => 0

theorem onWire_le_one (server : Server) (t : Nat) : onWire server t ≤ 1 := by
  unfold onWire
  split <;> omega

def orphaned (server : Server) (t : Nat) : Nat := server.orphans.count (t, .update)

/-- What a task may still send: `n` `UPDATE`s while it runs, and none otherwise. -/
def MaySend : Task Pg α → Nat → Prop
  | .running p, n => p.Spends isUpdate n
  | .finished _, n | .dropped, n => n = 0

/-- The `UPDATE`s of each task that ran, that may run late, and that it may send are within the
budget of its job. -/
structure Paid (budget : ι → Nat) (events : List (Event ι Label α)) (s : State Pg Server α) :
    Prop where
  waiting : Waiting s
  fresh : ∀ t, s.tasks t = none →
    (events.filterMap Event.executed).count t = 0 ∧ orphaned s.shared t = 0
  paid : ∀ t task, s.tasks t = some task → ∃ job n, .start t job ∈ events ∧ MaySend task n ∧
    (events.filterMap Event.executed).count t + orphaned s.shared t + n ≤
      budget job + onWire s.shared t

variable {budget : ι → Nat}

theorem Paid.idle (db : Database) :
    Paid budget ([] : List (Event ι Label α)) (State.idle (Server.quiet db)) :=
  ⟨fun _ _ _ h => (nomatch h), fun _ _ => ⟨rfl, rfl⟩, fun _ _ h => nomatch h⟩

theorem Paid.onWire_of_ne (paid : Paid budget events s) {t : Nat} {op : Op}
    {next : op.Reply → Prog Pg α} (waits : s.tasks t = some (.running (.call op next)))
    (hOp : isUpdate op = false) : onWire s.shared t = 0 := by
  unfold onWire
  split
  · next result hWire =>
    obtain ⟨next', hTask⟩ := paid.waiting t .update result hWire
    cases waits.symm.trans hTask
    cases hOp
  · rfl

/-- A task whose `UPDATE` is on the wire has that `UPDATE` in its budget. -/
theorem Paid.onWire_le (paid : Paid budget events s) {t : Nat} {task : Task Pg α} {n : Nat}
    (hTask : s.tasks t = some task) (may : MaySend task n) : onWire s.shared t ≤ n := by
  unfold onWire
  split
  · next result hWire =>
    obtain ⟨next, hTask'⟩ := paid.waiting t .update result hWire
    cases hTask.symm.trans hTask'
    exact may.1
  · exact Nat.zero_le n

/-- An event that runs no `UPDATE` of `t` leaves the number of those that ran. -/
theorem executed_snoc (t : Nat) : ((events ++ [event]).filterMap Event.executed).count t =
    (events.filterMap Event.executed).count t + if Event.executed event = some t then 1 else 0 :=
  count_filterMap_snoc ..

/-- A step that concerns task `t` keeps every other task within its budget. -/
theorem Paid.move (paid : Paid budget events s) (waiting : Waiting s') (t : Nat)
    (tasks : ∀ u, u ≠ t → s'.tasks u = s.tasks u)
    (others : ∀ u, u ≠ t → Event.executed event ≠ some u ∧
      onWire s'.shared u = onWire s.shared u ∧ orphaned s'.shared u = orphaned s.shared u)
    (fresh : s'.tasks t = none →
      ((events ++ [event]).filterMap Event.executed).count t = 0 ∧ orphaned s'.shared t = 0)
    (own : ∀ task, s'.tasks t = some task → ∃ job n, .start t job ∈ events ++ [event] ∧
      MaySend task n ∧
      ((events ++ [event]).filterMap Event.executed).count t + orphaned s'.shared t + n ≤
        budget job + onWire s'.shared t) : Paid budget (events ++ [event]) s' where
  waiting := waiting
  fresh := by
    intro u hTask
    by_cases hu : u = t
    · subst hu
      exact fresh hTask
    · obtain ⟨hEvent, -, hOrphans⟩ := others u hu
      rw [executed_snoc, if_neg hEvent, hOrphans]
      exact paid.fresh u ((tasks u hu).symm.trans hTask)
  paid := by
    intro u task hTask
    by_cases hu : u = t
    · subst hu
      exact own task hTask
    · obtain ⟨hEvent, hWire, hOrphans⟩ := others u hu
      obtain ⟨job, n, hStart, may, hLe⟩ := paid.paid u task ((tasks u hu).symm.trans hTask)
      refine ⟨job, n, List.mem_append_left _ hStart, may, ?_⟩
      rw [executed_snoc, if_neg hEvent, hOrphans, hWire]
      exact hLe

theorem executed_statement {label : Label} {t : Nat} {sql : Sql} {result : Except DbFailure sql.Row}
    (h : label = .committed t sql result ∨ label = .late t sql result) (u : Nat) :
    Event.executed (.device label : Event ι Label α) = some u ↔ t = u ∧ sql = .update := by
  rcases h with rfl | rfl <;> cases sql <;> simp [Event.executed]

theorem onWire_congr {server server' : Server} {t : Nat} (h : server'.wire t = server.wire t) :
    onWire server' t = onWire server t := by
  unfold onWire
  rw [h]

/-- The task that gives up an `UPDATE` before it runs. -/
def Label.abortedUpdate : Label → Option Nat
  | .aborted t .update => some t
  | _ => none

theorem reply_orphaned {t : Nat} {op : Op} {reply : op.Reply} {label : Label}
    {server server' : Server} (replied : Reply t op reply label server server') (u : Nat) :
    orphaned server' u = orphaned server u + if label.abortedUpdate = some u then 1 else 0 := by
  cases replied with
  | @aborted sql _ text waiting =>
    cases sql <;> simp [orphaned, List.count_cons, Label.abortedUpdate]
  | _ => rfl

theorem Paid.start (hProgram : ∀ job, (program job).Spends isUpdate (budget job))
    (paid : Paid budget events s) {t : Nat} {job : ι} (fresh : s.tasks t = none) :
    Paid budget (events ++ [.start t job]) (s.set t (.running (program job))) := by
  obtain ⟨hExecuted, hOrphans⟩ := paid.fresh t fresh
  refine paid.move (paid.waiting.step (.start job fresh)) t (fun u hu => ?_)
    (fun u hu => ⟨nofun, rfl, rfl⟩) (fun h => ?_) fun task hTask => ?_
  · rw [State.set_tasks, if_neg hu]
  · rw [State.set_tasks_same] at h
    cases h
  · rw [State.set_tasks_same] at hTask
    cases hTask
    refine ⟨job, budget job, List.mem_append_right _ List.mem_cons_self, hProgram job, ?_⟩
    rw [executed_snoc, if_neg nofun, hExecuted,
      show orphaned (s.set t _).shared t = 0 from hOrphans]
    omega

theorem Paid.serve (paid : Paid budget events s) {t : Nat} {op : Op}
    {next : op.Reply → Prog Pg α} {label : Label} {server : Server}
    (waits : s.tasks t = some (.running (.call op next)))
    (served : Serve t op label s.shared server)
    (waiting : Waiting ({ s with shared := server } : State Pg Server α)) :
    Paid budget (events ++ [.device label]) { s with shared := server } := by
  cases served with
  | @commit sql _ free =>
    refine paid.move waiting t (fun _ _ => rfl) (fun u hu => ⟨?_, ?_, rfl⟩) (fun h => ?_)
      fun task hTask => ?_
    · exact fun h => hu ((executed_statement (.inl rfl) u).mp h).1.symm
    · exact onWire_congr (by rw [Server.setWire_wire, if_neg hu])
    · rw [show s.tasks t = none from h] at waits
      cases waits
    · obtain ⟨job, n, hStart, may, hLe⟩ := paid.paid t task hTask
      have hOld : onWire s.shared t = 0 := by simp [onWire, free]
      refine ⟨job, n, List.mem_append_left _ hStart, may, ?_⟩
      have hNew : onWire { s.shared.setWire t (some ⟨sql, (s.shared.db.exec sql).1⟩) with
          db := (s.shared.db.exec sql).2 } t = if t = t ∧ sql = .update then 1 else 0 := by
        cases sql <;> simp [onWire, Server.setWire]
      rw [executed_snoc, hNew]
      simp only [executed_statement (.inl rfl)]
      show _ + orphaned s.shared t + n ≤ _
      omega

theorem Paid.late (paid : Paid budget events s) {label : Label} {server : Server}
    (drifts : Drift label s.shared server)
    (waiting : Waiting ({ s with shared := server } : State Pg Server α)) :
    Paid budget (events ++ [.device label]) { s with shared := server } := by
  cases drifts with
  | @late t sql _ orphan =>
    have hOrphaned : ∀ u, orphaned s.shared u =
        (s.shared.orphans.erase (t, sql)).count (u, .update) +
          if t = u ∧ sql = .update then 1 else 0 := by
      intro u
      rw [orphaned, (List.perm_cons_erase orphan).count_eq, List.count_cons]
      simp only [beq_iff_eq, Prod.mk.injEq]
    have hExecuted : ∀ u, ((events ++
        [Event.device (Label.late t sql (s.shared.db.exec sql).1)]).filterMap
          Event.executed).count u + (s.shared.orphans.erase (t, sql)).count (u, .update) =
        (events.filterMap Event.executed).count u + orphaned s.shared u := by
      intro u
      rw [executed_snoc, hOrphaned u]
      simp only [executed_statement (.inr rfl)]
      omega
    refine ⟨waiting, fun u hTask => ?_, fun u task hTask => ?_⟩
    · obtain ⟨hNone, hNo⟩ := paid.fresh u hTask
      have := hExecuted u
      refine ⟨by omega, ?_⟩
      show (s.shared.orphans.erase (t, sql)).count (u, .update) = 0
      omega
    · obtain ⟨job, n, hStart, may, hLe⟩ := paid.paid u task hTask
      have := hExecuted u
      refine ⟨job, n, List.mem_append_left _ hStart, may, ?_⟩
      show _ + (s.shared.orphans.erase (t, sql)).count (u, .update) + n ≤
        budget job + onWire s.shared u
      omega

theorem Paid.reply (paid : Paid budget events s) {t : Nat} {op : Op}
    {next : op.Reply → Prog Pg α} {reply : op.Reply} {label : Label} {server : Server}
    (waits : s.tasks t = some (.running (.call op next)))
    (replied : Reply t op reply label s.shared server)
    (waiting : Waiting (({ s with shared := server } : State Pg Server α).set t
      (.running (next reply)))) :
    Paid budget (events ++ [.device label])
      (({ s with shared := server } : State Pg Server α).set t (.running (next reply))) := by
  have hWire := reply_wire paid.waiting waits replied
  have hExecuted : ∀ u, Event.executed (.device label : Event ι Label α) ≠ some u := by
    intro u
    cases replied <;> nofun
  have hOrphans := reply_orphaned replied
  have hAborted : ∀ u, label.abortedUpdate = some u → u = t ∧ isUpdate op = true := by
    intro u h
    cases replied with
    | @aborted sql _ text waiting =>
      cases sql <;> cases h
      exact ⟨rfl, rfl⟩
    | _ => cases h
  refine paid.move waiting t (fun u hu => ?_) (fun u hu => ⟨hExecuted u, ?_, ?_⟩) (fun h => ?_)
    fun task hTask => ?_
  · rw [State.set_tasks, if_neg hu]
  · exact onWire_congr ((hWire u).trans (if_neg hu))
  · exact (hOrphans u).trans (by rw [if_neg fun h => hu (hAborted u h).1, Nat.add_zero])
  · rw [State.set_tasks_same] at h
    cases h
  · rw [State.set_tasks_same] at hTask
    cases hTask
    obtain ⟨job, n, hStart, may, hLe⟩ := paid.paid t _ waits
    have spends : (Prog.call op next : Prog Pg α).Spends isUpdate n := may
    have hNone : onWire server t = 0 := by simp [onWire, hWire]
    cases hOp : isUpdate op with
    | false =>
      have hZero := paid.onWire_of_ne waits hOp
      have hSame := hOrphans t
      rw [if_neg fun h => Bool.false_ne_true (hOp.symm.trans (hAborted t h).2)] at hSame
      refine ⟨job, n, List.mem_append_left _ hStart, spends.call_other hOp reply, ?_⟩
      rw [executed_snoc, if_neg (hExecuted t)]
      show _ + orphaned server t + n ≤ budget job + onWire server t
      omega
    | true =>
      -- The `UPDATE` was on the wire, or it may run late: either way the task has sent it.
      obtain ⟨hPos, may'⟩ := spends.call_of hOp reply
      have hSent : orphaned server t + onWire s.shared t ≤ orphaned s.shared t + 1 := by
        rw [hOrphans t]
        split
        · next h =>
          have hFree : onWire s.shared t = 0 := by
            cases replied with
            | aborted text free => simp [onWire, free]
            | _ => cases h
          omega
        · have := onWire_le_one s.shared t
          omega
      refine ⟨job, n - 1, List.mem_append_left _ hStart, may', ?_⟩
      rw [executed_snoc, if_neg (hExecuted t)]
      show _ + orphaned server t + (n - 1) ≤ budget job + onWire server t
      omega

theorem Paid.finish (paid : Paid budget events s) {t : Nat} {value : α}
    (returns : s.tasks t = some (.running (.ret value)))
    (waiting : Waiting (s.set t (.finished value))) :
    Paid budget (events ++ [.finish t value]) (s.set t (.finished value)) := by
  refine paid.move waiting t (fun u hu => ?_) (fun u hu => ⟨nofun, rfl, rfl⟩) (fun h => ?_)
    fun task hTask => ?_
  · rw [State.set_tasks, if_neg hu]
  · rw [State.set_tasks_same] at h
    cases h
  · rw [State.set_tasks_same] at hTask
    cases hTask
    obtain ⟨job, n, hStart, may, hLe⟩ := paid.paid t _ returns
    refine ⟨job, 0, List.mem_append_left _ hStart, rfl, ?_⟩
    rw [executed_snoc, if_neg nofun]
    show _ + orphaned s.shared t + 0 ≤ budget job + onWire s.shared t
    omega

theorem Paid.step (hProgram : ∀ job, (program job).Spends isUpdate (budget job))
    (paid : Paid budget events s) (step : Step program device s event s') :
    Paid budget (events ++ [event]) s' := by
  have waiting := paid.waiting.step step
  cases step with
  | start job fresh => exact paid.start hProgram fresh
  | serve waits served => exact paid.serve waits served waiting
  | reply waits replied => exact paid.reply waits replied waiting
  | drift drifts => exact paid.late drifts waiting
  | finish returns => exact paid.finish returns waiting
  | drop waits released => exact released.elim

theorem run_paid (hProgram : ∀ job, (program job).Spends isUpdate (budget job)) {db : Database}
    (run : Run program device (State.idle (Server.quiet db)) events s) : Paid budget events s := by
  induction run with
  | nil => exact .idle db
  | snoc _ step ih => exact ih.step hProgram step

/-- Every task's `UPDATE`s that took effect are within the budget of a job that it started on. -/
theorem advances_paid (paid : Paid budget events s) {t : Nat} (h : t ∈ advances events) :
    ∃ job, .start t job ∈ events ∧ (advances events).count t ≤ budget job := by
  have hCount := advances_count_le events t
  have hPos : 0 < (advances events).count t := List.count_pos_iff.mpr h
  cases hTask : s.tasks t with
  | none =>
    have := (paid.fresh t hTask).1
    omega
  | some task =>
    obtain ⟨job, n, hStart, may, hLe⟩ := paid.paid t task hTask
    refine ⟨job, hStart, ?_⟩
    have hSent : onWire s.shared t ≤ n := paid.onWire_le hTask may
    omega

/-! ### The table -/

theorem exec_row (db : Database) (sql : Sql) {id : Int} (hId : id ≠ 1) :
    (db.exec sql).2.row id = db.row id := by
  cases sql with
  | init => exact db.row_init_of_ne hId
  | update => exact db.row_update_of_ne hId
  | selectOne => rfl

/-- Row 1 is only ever created with the value 0. -/
theorem exec_creates (db : Database) (sql : Sql) (hRow : db.row1 = none) :
    (db.exec sql).2.row1 = none ∨ (db.exec sql).2.row1 = some .zero := by
  cases sql with
  | init => exact .inr (by simp [Database.exec, Database.row1_init, hRow])
  | update =>
    rcases db.update_cases with ⟨failure, hExec⟩ | ⟨v, row, after, hSome, -⟩
    · exact .inl (by simp [Database.exec, hExec, hRow])
    · cases hRow.symm.trans hSome
  | selectOne => exact .inl hRow

/-- A step leaves the database as it is, or runs one statement. -/
theorem step_db (step : Step program device s event s') :
    s'.shared.db = s.shared.db ∨ ∃ sql, s'.shared.db = (s.shared.db.exec sql).2 := by
  cases step with
  | start job fresh => exact .inl rfl
  | serve waits served => cases served; exact .inr ⟨_, rfl⟩
  | reply waits replied => cases replied <;> exact .inl rfl
  | drift drifts => cases drifts; exact .inr ⟨_, rfl⟩
  | finish returns => exact .inl rfl
  | drop waits released => exact released.elim

theorem advances_snoc : advances (events ++ [event]) =
    advances events ++ ((Event.advance event).map Prod.fst).toList := by
  rw [advances, List.filterMap_append, List.map_append]
  cases h : Event.advance event <;> simp [advances, h]

/-- Row 1 holds its first value and one for each `UPDATE` that took effect, and no other row has
changed. -/
structure Grown (db : Database) (events : List (Event ι Label α)) (s : State Pg Server α) :
    Prop where
  others : ∀ id, id ≠ 1 → s.shared.db.row id = db.row id
  missing : row1 s = none → db.row1 = none ∧ advances events = []
  row : ∀ w, row1 s = some w → w.val = (db.row1.getD .zero).val + (advances events).length

theorem Grown.step {db : Database} (grown : Grown db events s)
    (step : Step program device s event s') : Grown db (events ++ [event]) s' := by
  obtain ⟨others, missing, row⟩ := grown
  have hOthers : ∀ id, id ≠ 1 → s'.shared.db.row id = db.row id := by
    intro id hId
    rw [← others id hId]
    rcases step_db step with hDb | ⟨sql, hDb⟩
    · rw [hDb]
    · rw [hDb, exec_row _ sql hId]
  rcases step_row1 step with ⟨t, next, v, hAdvance, hRow, hNext, hRow'⟩ | ⟨hNone, hSame⟩
  · refine ⟨hOthers, fun h => (by rw [hRow'] at h; cases h), fun w h => ?_⟩
    obtain rfl : next = w := Option.some.inj (hRow'.symm.trans h)
    have := row v hRow
    rw [advances_snoc, hAdvance, List.length_append]
    show next.val = (db.row1.getD .zero).val + ((advances events).length + 1 : Nat)
    omega
  · have hAdvances : advances (events ++ [event]) = advances events := by
      rw [advances_snoc, hNone]
      exact List.append_nil _
    cases hRow : row1 s with
    | some v =>
      have hRow' := hSame v hRow
      refine ⟨hOthers, fun h => (by rw [hRow'] at h; cases h), fun w h => ?_⟩
      obtain rfl : v = w := Option.some.inj (hRow'.symm.trans h)
      rw [hAdvances]
      exact row v hRow
    | none =>
      obtain ⟨hDb, hNil⟩ := missing hRow
      refine ⟨hOthers, fun _ => ⟨hDb, hAdvances.trans hNil⟩, fun w h => ?_⟩
      have hZero : row1 s' = none ∨ row1 s' = some .zero := by
        rcases step_db step with hSame | ⟨sql, hExec⟩
        · exact .inl (by rw [row1, hSame]; exact hRow)
        · rw [row1, hExec]
          exact exec_creates s.shared.db sql hRow
      rw [h] at hZero
      rw [hAdvances, hNil, hDb, Option.some.inj (hZero.resolve_left nofun)]
      rfl

theorem run_grown {db : Database}
    (run : Run program device (State.idle (Server.quiet db)) events s) : Grown db events s := by
  induction run with
  | nil =>
    refine ⟨fun _ _ => rfl, fun h => ⟨h, rfl⟩, fun w h => ?_⟩
    rw [show db.row1 = some w from h]
    exact (Int.add_zero _).symm
  | snoc _ step ih => exact ih.step step

end

/-! ### The fleet -/

def pageViewStarts (events : List (Event Work Label Outcome)) : List Nat :=
  events.filterMap fun
    | .start t work => if work.isPageView then some t else none
    | _ => none

theorem mem_pageViewStarts {events : List (Event Work Label Outcome)} {t : Nat} {work : Work}
    (hStart : .start t work ∈ events) (hView : work.isPageView = true) :
    t ∈ pageViewStarts events :=
  List.mem_filterMap.mpr ⟨_, hStart, if_pos hView⟩

/-- A list in which each entry stands at most `n` times, and which another list covers. -/
theorem length_le_mul {l m : List Nat} {n : Nat} (h : ∀ t ∈ l, t ∈ m ∧ l.count t ≤ n) :
    l.length ≤ n * m.length := by
  have hSubperm : l.Subperm (List.replicate n m).flatten := by
    refine List.subperm_ext_iff.mpr fun t ht => ?_
    obtain ⟨hMem, hCount⟩ := h t ht
    have hPos : 0 < m.count t := List.count_pos_iff.mpr hMem
    rw [List.count_flatten, List.map_replicate, List.sum_replicate, smul_eq_mul]
    exact hCount.trans (Nat.le_mul_of_pos_right n hPos)
  have := hSubperm.length_le
  simpa using this

/-- In every run of any number of processes, whatever connections fail: each `UPDATE` that takes
effect is one of at most four of a page view in counter mode, so row 1 grows by at most four for
each page view and by nothing else, and no other row changes. -/
theorem fleet_counts_page_views {db : Database} {events : List (Event Work Label Outcome)}
    {s : State Pg Server Outcome}
    (run : Run Work.program device (State.idle (Server.quiet db)) events s) :
    (∀ t ∈ advances events, t ∈ pageViewStarts events ∧ (advances events).count t ≤ 4) ∧
    (advances events).length ≤ 4 * (pageViewStarts events).length ∧
    (row1 s = none → db.row1 = none ∧ advances events = []) ∧
    (∀ w, row1 s = some w → w.val = (db.row1.getD .zero).val + (advances events).length) ∧
    ∀ id, id ≠ 1 → s.shared.db.row id = db.row id := by
  have paid := run_paid Work.program_spends run
  have grown := run_grown run
  have views : ∀ t ∈ advances events,
      t ∈ pageViewStarts events ∧ (advances events).count t ≤ 4 := by
    intro t ht
    obtain ⟨work, hStart, hCount⟩ := advances_paid paid ht
    have hPos : 0 < (advances events).count t := List.count_pos_iff.mpr ht
    rw [Work.updates] at hCount
    split at hCount
    · next hView => exact ⟨mem_pageViewStarts hStart hView, hCount⟩
    · omega
  exact ⟨views, length_le_mul views, grown.missing, grown.row, grown.others⟩

/-! ### A page whose first row is lost -/

def localProcess (mode : GreetingMode) : Process :=
  ⟨mode, (localRouter mode).state.serverLabel, ⟨"host=haproxy"⟩⟩

theorem Work.program_page : (Work.exchange (localProcess .counter) ⟨.get, "/"⟩).program =
    (localProcess .counter).store.loop 3 250 >>= fun result =>
      .ret (.response (Router.counterResponse (localProcess .counter).serverLabel result)) := by
  show ((localProcess .counter).router.handle ⟨.get, "/"⟩ >>= fun response =>
    Prog.ret (Outcome.response response)) = _
  rw [Router.handle_root_counter _ rfl, Prog.bind_assoc]
  rfl

/-- A process starts on an empty database and serves one page, whose first row is lost. -/
def lostPage : List (Event Work Label Outcome) :=
  [.start 0 (.startUp ⟨"host=haproxy"⟩), .device (.connected 0),
    .device (.committed 0 .init (.ok ())), .device (.delivered 0 .init (.ok ())),
    .finish 0 (.connected (.ok ⟨"host=haproxy"⟩)),
    .start 1 (.exchange (localProcess .counter) ⟨.get, "/"⟩), .device (.connected 1),
    .device (.committed 1 .update (.ok Bigint.one)), .device (.lost 1 .update (.ok Bigint.one)),
    .device (.refused 1), .device (.slept 1), .device (.connected 1),
    .device (.committed 1 .update (.ok Bigint.two)),
    .device (.delivered 1 .update (.ok Bigint.two)),
    .finish 1 (.response (Router.counterResponse (localProcess .counter).serverLabel (.ok 2)))]

theorem lostPage_run :
    ∃ s, Run Work.program device (State.idle (Server.quiet ⟨none⟩)) lostPage s :=
  ⟨_, .head (.start _ (by rfl)) <|
    .head (.reply (by rfl) .connected) <|
    .head (.serve (by rfl) (.commit_eq (by rfl) (by rfl))) <|
    .head (.reply (by rfl) (.delivered (by rfl))) <|
    .head (.finish (by rfl)) <|
    .head (.start_eq (by rfl) Work.program_page) <|
    .head (.reply (by rfl) .connected) <|
    .head (.serve (by rfl) (.commit_eq (by rfl) (by rfl))) <|
    .head (.reply (by rfl) (.lost "connection closed" (by rfl))) <|
    .head (.reply (by rfl) (.refused "connection refused")) <|
    .head (.reply (by rfl) .slept) <|
    .head (.reply (by rfl) .connected) <|
    .head (.serve (by rfl) (.commit_eq (by rfl) (by rfl))) <|
    .head (.reply (by rfl) (.delivered (by rfl))) <|
    .head (.finish (by rfl)) .nil⟩

theorem lostPage_counted : advances lostPage = [1, 1] ∧
    (advances lostPage).length ≤ 4 * (pageViewStarts lostPage).length := by
  obtain ⟨s, run⟩ := lostPage_run
  exact ⟨by decide, (fleet_counts_page_views run).2.1⟩

end HelloCounter.Postgres
