import HelloCounter.Library.Schedule
import HelloCounter.Postgres.Store

/-! Any number of store calls on one primary.  The primary runs each statement atomically; the
connection that carries a statement may fail before the primary runs it or after, and a statement
whose connection failed early may still run later. -/

namespace HelloCounter.Postgres

open Effect Schedule

/-- The primary and the network. -/
structure Server where
  db : Database
  /-- The result of a committed statement that is on its way to a task. -/
  wire : Nat → Option (Σ sql : Sql, Except DbFailure sql.Row)
  /-- The statements that lost their connection before they ran. -/
  orphans : List (Nat × Sql)

def Server.setWire (server : Server) (t : Nat)
    (content : Option (Σ sql : Sql, Except DbFailure sql.Row)) : Server :=
  { server with wire := Function.update server.wire t content }

theorem Server.setWire_wire (server : Server) (t u : Nat)
    (content : Option (Σ sql : Sql, Except DbFailure sql.Row)) :
    (server.setWire t content).wire u = if u = t then content else server.wire u :=
  Function.update_apply ..

inductive Label where
  | connected (task : Nat)
  | refused (task : Nat)
  | committed (task : Nat) (sql : Sql) (result : Except DbFailure sql.Row)
  | delivered (task : Nat) (sql : Sql) (result : Except DbFailure sql.Row)
  /-- The connection failed after the statement ran. -/
  | lost (task : Nat) (sql : Sql) (result : Except DbFailure sql.Row)
  /-- The connection failed before the statement ran. -/
  | aborted (task : Nat) (sql : Sql)
  /-- A statement ran after its connection failed. -/
  | late (task : Nat) (sql : Sql) (result : Except DbFailure sql.Row)
  | slept (task : Nat)

def Label.task : Label → Nat
  | .connected t | .refused t | .slept t | .aborted t _ => t
  | .committed t _ _ | .delivered t _ _ | .lost t _ _ | .late t _ _ => t

inductive Serve : Nat → Op → Label → Server → Server → Prop
  | commit {t sql server} (waiting : server.wire t = none) :
      Serve t (.exec sql) (.committed t sql (server.db.exec sql).1) server
        { server.setWire t (some ⟨sql, (server.db.exec sql).1⟩) with
          db := (server.db.exec sql).2 }

inductive Reply : Nat → (op : Op) → op.Reply → Label → Server → Server → Prop
  | connected {t connectionString server} :
      Reply t (.connect connectionString) (.ok ()) (.connected t) server server
  | refused {t connectionString server} (text : String) :
      Reply t (.connect connectionString) (.error (.connection text)) (.refused t) server server
  | delivered {t sql result server} (arrived : server.wire t = some ⟨sql, result⟩) :
      Reply t (.exec sql) (result.mapError .statement) (.delivered t sql result) server
        (server.setWire t none)
  | lost {t sql result server} (text : String) (arrived : server.wire t = some ⟨sql, result⟩) :
      Reply t (.exec sql) (.error (.connection text)) (.lost t sql result) server
        (server.setWire t none)
  | aborted {t sql server} (text : String) (waiting : server.wire t = none) :
      Reply t (.exec sql) (.error (.connection text)) (.aborted t sql) server
        { server with orphans := (t, sql) :: server.orphans }
  | slept {t millis server} : Reply t (.sleep millis) () (.slept t) server server

inductive Drift : Label → Server → Server → Prop
  | late {t sql server} (orphan : (t, sql) ∈ server.orphans) :
      Drift (.late t sql (server.db.exec sql).1) server
        { server with
          db := (server.db.exec sql).2
          orphans := server.orphans.erase (t, sql) }

/-- The primary as a device.  No task is dropped while it waits for it. -/
def device : Device Pg Server Label where
  serve := Serve
  reply := Reply
  drift := Drift
  release _ _ _ _ := False

theorem Serve.commit_eq {t : Nat} {sql : Sql} {result : Except DbFailure sql.Row} {server : Server}
    (waiting : server.wire t = none) (h : (server.db.exec sql).1 = result) :
    Serve t (.exec sql) (.committed t sql result) server
      { server.setWire t (some ⟨sql, result⟩) with db := (server.db.exec sql).2 } := by
  subst h
  exact .commit waiting

def Server.quiet (db : Database) : Server := ⟨db, fun _ => none, []⟩

section

variable {ι α : Type} {program : ι → Prog Pg α} {s s' : State Pg Server α}

def row1 (s : State Pg Server α) : Option Bigint := s.shared.db.row1

/-- The row of an `UPDATE` that takes effect, and the task that sent it. -/
def Label.advance : Label → Option (Nat × Bigint)
  | .committed t .update (.ok row) => some (t, row)
  | .late t .update (.ok row) => some (t, row)
  | _ => none

theorem exec_row1 (db : Database) (sql : Sql) {label : Label} {t : Nat}
    (hLabel : label = .committed t sql (db.exec sql).1 ∨ label = .late t sql (db.exec sql).1) :
    (∃ row v, label.advance = some (t, row) ∧ db.row1 = some v ∧ row.val = v.val + 1 ∧
      (db.exec sql).2.row1 = some row) ∨
    (label.advance = none ∧ ∀ v, db.row1 = some v → (db.exec sql).2.row1 = some v) := by
  cases sql with
  | init =>
    refine .inr ⟨by rcases hLabel with rfl | rfl <;> rfl, fun v hv => ?_⟩
    simp [Database.exec, Database.row1_init, hv]
  | update =>
    rcases db.update_cases with ⟨failure, hExec⟩ | ⟨v, row, after, hRow, hNext, hExec, hAfter⟩
    · refine .inr ⟨?_, fun v hv => by simp [Database.exec, hExec, hv]⟩
      rcases hLabel with rfl | rfl <;> simp [Database.exec, hExec, Label.advance]
    · refine .inl ⟨row, v, ?_, hRow, hNext, by simp [Database.exec, hExec, hAfter]⟩
      rcases hLabel with rfl | rfl <;> simp [Database.exec, hExec, Label.advance]
  | selectOne => exact .inr ⟨by rcases hLabel with rfl | rfl <;> rfl, fun v hv => hv⟩

/-- The effect of an event on row 1: an `UPDATE` that takes effect adds one, and no other event
changes the row once it exists. -/
def Event.advance : Event ι Label α → Option (Nat × Bigint)
  | .device label => label.advance
  | _ => none

theorem step_row1 {event : Event ι Label α} (step : Step program device s event s') :
    (∃ t row v, Event.advance event = some (t, row) ∧ row1 s = some v ∧ row.val = v.val + 1 ∧
      row1 s' = some row) ∨
    (Event.advance event = none ∧ ∀ v, row1 s = some v → row1 s' = some v) := by
  cases step with
  | start job fresh => exact .inr ⟨rfl, fun v h => h⟩
  | @serve t _ _ _ _ waits served =>
    cases served with
    | commit waiting =>
      rcases exec_row1 s.shared.db _ (.inl rfl) with ⟨row, v, h⟩ | h
      · exact .inl ⟨t, row, v, h⟩
      · exact .inr h
  | reply waits replied =>
    refine .inr ⟨?_, ?_⟩
    · cases replied <;> rfl
    · cases replied <;> exact fun v h => h
  | drift drifts =>
    cases drifts with
    | @late t _ _ orphan =>
      rcases exec_row1 s.shared.db _ (.inr rfl) with ⟨row, v, h⟩ | h
      · exact .inl ⟨t, row, v, h⟩
      · exact .inr h
  | finish returns => exact .inr ⟨rfl, fun v h => h⟩
  | drop waits released => exact released.elim

theorem run_row1_le {events : List (Event ι Label α)} (run : Run program device s events s')
    {v : Bigint} (h : row1 s = some v) : ∃ w, row1 s' = some w ∧ v.val ≤ w.val := by
  induction run with
  | nil => exact ⟨v, h, Int.le_refl _⟩
  | snoc _ step ih =>
    obtain ⟨w, hw, hvw⟩ := ih
    rcases step_row1 step with ⟨_, row, x, _, hx, hNext, hRow⟩ | ⟨_, hSame⟩
    · obtain rfl : x = w := Option.some.inj (hx.symm.trans hw)
      exact ⟨row, hRow, by omega⟩
    · exact ⟨w, hSame w hw, hvw⟩

/-! ### Results on the wire -/

def Waiting (s : State Pg Server α) : Prop :=
  ∀ t sql result, s.shared.wire t = some ⟨sql, result⟩ →
    ∃ next, s.tasks t = some (.running (.call (.exec sql) next))

theorem reply_wire {t : Nat} {op : Op} {next : op.Reply → Prog Pg α} {reply : op.Reply}
    {label : Label} {shared : Server} (waiting : Waiting s)
    (waits : s.tasks t = some (.running (.call op next)))
    (replied : Reply t op reply label s.shared shared) (u : Nat) :
    shared.wire u = if u = t then none else s.shared.wire u := by
  have idle : (∀ sql, op ≠ .exec sql) → s.shared.wire t = none := by
    intro hOp
    cases hWire : s.shared.wire t with
    | none => rfl
    | some content =>
      obtain ⟨sql, result⟩ := content
      obtain ⟨_, hTask⟩ := waiting t sql result hWire
      rw [waits] at hTask
      cases hTask
      exact absurd rfl (hOp sql)
  have same : s.shared.wire t = none →
      s.shared.wire u = if u = t then none else s.shared.wire u := by
    intro h
    split
    · next hu => rw [hu, h]
    · rfl
  cases replied with
  | connected => exact same (idle (by simp))
  | refused text => exact same (idle (by simp))
  | delivered arrived => exact Server.setWire_wire ..
  | lost text arrived => exact Server.setWire_wire ..
  | aborted text waiting => exact same waiting
  | slept => exact same (idle (by simp))

theorem Waiting.step {event : Event ι Label α} (waiting : Waiting s)
    (step : Step program device s event s') : Waiting s' := by
  intro u sql result hWire
  -- A task whose entry changes has no result on the wire, before or after.
  have other : ∀ {t : Nat} {task : Task Pg α}, s.shared.wire u = some ⟨sql, result⟩ → u ≠ t →
      ∃ next, (s.set t task).tasks u = some (.running (.call (.exec sql) next)) := by
    intro t task hWire hne
    obtain ⟨next, hTask⟩ := waiting u sql result hWire
    exact ⟨next, by rw [State.set_tasks, if_neg hne, hTask]⟩
  cases step with
  | start job fresh =>
    apply other hWire
    rintro rfl
    obtain ⟨_, hTask⟩ := waiting u sql result hWire
    rw [fresh] at hTask
    cases hTask
  | @serve t op next label shared waits served =>
    cases served with
    | commit free =>
      have hWire' := (Server.setWire_wire ..).symm.trans hWire
      split at hWire'
      · next hu =>
        cases hWire'
        exact ⟨next, hu ▸ waits⟩
      · exact waiting u sql result hWire'
  | reply waits replied =>
    have hWire' := (reply_wire waiting waits replied u).symm.trans hWire
    split at hWire'
    · cases hWire'
    · next hne => exact other hWire' hne
  | drift drifts =>
    cases drifts
    exact waiting u sql result hWire
  | finish returns =>
    apply other hWire
    rintro rfl
    obtain ⟨_, hTask⟩ := waiting u sql result hWire
    rw [returns] at hTask
    cases hTask
  | drop waits released => exact released.elim

end

end HelloCounter.Postgres
