import Mathlib.Algebra.Group.Int.Defs
import Mathlib.Logic.Function.Basic

/-! The database behind the Postgres store: the table `counters` and what the statements of
`crates/adapter-counter-store-postgres` do to it.  Each statement is one atomic transaction. -/

namespace HelloCounter.Postgres

structure Bigint where
  val : Int
  lower : -2 ^ 63 ≤ val
  upper : val < 2 ^ 63
deriving DecidableEq

namespace Bigint

def zero : Bigint := ⟨0, by decide, by decide⟩

def one : Bigint := ⟨1, by decide, by decide⟩

def two : Bigint := ⟨2, by decide, by decide⟩

/-- `value + 1`, or nothing when the sum is out of range. -/
def succ? (v : Bigint) : Option Bigint :=
  if h : v.val + 1 < 2 ^ 63 then some ⟨v.val + 1, by have := v.lower; omega, h⟩ else none

theorem succ?_eq_some {v w : Bigint} (h : v.succ? = some w) : w.val = v.val + 1 := by
  unfold succ? at h
  split at h
  · cases h; rfl
  · cases h

theorem succ?_of_lt {v : Bigint} (h : v.val + 1 < 2 ^ 63) :
    ∃ w, v.succ? = some w ∧ w.val = v.val + 1 :=
  ⟨_, dif_pos h, rfl⟩

end Bigint

/-- The table `counters`: the value of each `id`, which is its primary key. -/
abbrev Counters := Int → Option Bigint

/-- A database without the table `counters` has `none`. -/
structure Database where
  counters : Option Counters

inductive Sql where
  /-- `INIT_SQL`. -/
  | init
  /-- `UPDATE counters SET value = value + 1 WHERE id = 1 RETURNING value`. -/
  | update
  /-- `SELECT 1`. -/
  | selectOne
deriving DecidableEq

/-- What the client reads from the result of a statement. -/
def Sql.Row : Sql → Type
  | .init => Unit
  | .update => Bigint
  | .selectOne => Unit

/-- Why a statement fails although its connection does not. -/
inductive DbFailure where
  | undefinedTable
  | rowCount
  | outOfRange
deriving DecidableEq

namespace Database

def row1 (db : Database) : Option Bigint := db.counters.bind (· 1)

def row (db : Database) (id : Int) : Option Bigint := db.counters.bind (· id)

/-- `CREATE TABLE IF NOT EXISTS`, then `INSERT ... ON CONFLICT (id) DO NOTHING`. -/
def init (db : Database) : Database :=
  let counters := db.counters.getD fun _ => none
  match counters 1 with
  | some _ => ⟨some counters⟩
  | none => ⟨some (Function.update counters 1 (some .zero))⟩

/-- The `UPDATE`, read with `query_one`, which fails on zero rows. -/
def update (db : Database) : Except DbFailure Bigint × Database :=
  match db.counters with
  | none => (.error .undefinedTable, db)
  | some counters =>
    match counters 1 with
    | none => (.error .rowCount, db)
    | some value =>
      match value.succ? with
      | none => (.error .outOfRange, db)
      | some next => (.ok next, ⟨some (Function.update counters 1 (some next))⟩)

def exec (db : Database) : (sql : Sql) → Except DbFailure sql.Row × Database
  | .init => (.ok (), db.init)
  | .update => db.update
  | .selectOne => (.ok (), db)

/-! ### What the statements do to row 1 -/

theorem row1_init (db : Database) : db.init.row1 = some (db.row1.getD .zero) := by
  obtain ⟨_ | counters⟩ := db
  · simp [init, row1]
  · cases h : counters 1 <;> simp [init, row1, h]

/-- An `UPDATE` either fails and changes nothing, or adds one to row 1 and returns the sum. -/
theorem update_cases (db : Database) :
    (∃ failure, db.update = (.error failure, db)) ∨
      ∃ value next after, db.row1 = some value ∧ next.val = value.val + 1 ∧
        db.update = (.ok next, after) ∧ after.row1 = some next := by
  obtain ⟨_ | counters⟩ := db
  · exact .inl ⟨_, rfl⟩
  · cases hRow : counters 1 with
    | none => exact .inl ⟨.rowCount, by simp only [update, hRow]⟩
    | some value =>
      cases hNext : value.succ? with
      | none => exact .inl ⟨.outOfRange, by simp only [update, hRow, hNext]⟩
      | some next =>
        exact .inr ⟨value, next, _, hRow, Bigint.succ?_eq_some hNext,
          by simp only [update, hRow, hNext]; rfl, by simp [row1]⟩

theorem update_ok {db : Database} {value : Bigint} (hRow : db.row1 = some value)
    (hNext : value.val + 1 < 2 ^ 63) :
    ∃ next after, db.update = (.ok next, after) ∧ next.val = value.val + 1 ∧
      after.row1 = some next := by
  obtain ⟨_ | counters⟩ := db
  · cases hRow
  · have hRow' : counters 1 = some value := hRow
    obtain ⟨next, hSucc, hVal⟩ := Bigint.succ?_of_lt hNext
    exact ⟨next, _, by simp only [update, hRow', hSucc]; rfl, hVal, by simp [row1]⟩

/-! ### What they leave alone -/

theorem init_of_row1 {db : Database} {value : Bigint} (hRow : db.row1 = some value) :
    db.init = db := by
  obtain ⟨_ | counters⟩ := db
  · cases hRow
  · have hRow' : counters 1 = some value := hRow
    simp [init, hRow']

theorem row_init_of_ne (db : Database) {id : Int} (hId : id ≠ 1) : db.init.row id = db.row id := by
  obtain ⟨_ | counters⟩ := db
  · simp [init, row, hId]
  · cases h : counters 1 <;> simp [init, row, h, hId]

theorem row_update_of_ne (db : Database) {id : Int} (hId : id ≠ 1) :
    db.update.2.row id = db.row id := by
  obtain ⟨_ | counters⟩ := db
  · rfl
  · cases hRow : counters 1 with
    | none => simp [update, row, hRow]
    | some value => cases hNext : value.succ? <;> simp [update, row, hRow, hNext, hId]

end Database

end HelloCounter.Postgres
