import HelloCounter.Application
import HelloCounter.Postgres.Database

/-! `PostgresCounterStore`: a new connection for every attempt, and a loop that runs `INIT_SQL` and
waits after each of its first three failed attempts. -/

namespace HelloCounter.Postgres

open Effect

/-- A `tokio_postgres::Error`: a statement that fails, or a connection that does, with the text of
the cause. -/
inductive PgError where
  | statement (failure : DbFailure)
  | connection (text : String)
deriving DecidableEq

def PgError.text : PgError → String
  | .statement .rowCount => "query returned an unexpected number of rows"
  | .statement _ => "db error"
  | .connection text => text

inductive Op where
  | connect (connectionString : String)
  /-- `query_one` or `batch_execute` on the open connection. -/
  | exec (sql : Sql)
  | sleep (millis : Nat)

abbrev Op.Reply : Op → Type
  | .connect _ => Except PgError Unit
  | .exec sql => Except PgError sql.Row
  | .sleep _ => Unit

abbrev Pg : Interface := ⟨Op, Op.Reply⟩

def execute (sql : Sql) : Prog Pg (Except PgError sql.Row) := Prog.perform (E := Pg) (.exec sql)

def sleep (millis : Nat) : Prog Pg Unit := Prog.perform (E := Pg) (.sleep millis)

def mapCounterStoreError (error : PgError) : CounterStoreError := .unavailable error.text

inductive PostgresAdapterError where
  | connect (error : PgError)
  | initializeStore (error : PgError)
deriving DecidableEq

structure PostgresCounterStoreConfig where
  connectionString : String

structure PostgresCounterStore where
  connectionString : String

/-- `u64::try_from` on an `i64`. -/
def u64TryFrom (value : Bigint) : Except CounterStoreError UInt64 :=
  if 0 ≤ value.val then .ok (UInt64.ofNat value.val.toNat)
  else .error (.unavailable "out of range integral type conversion attempted")

theorem u64TryFrom_of_nonneg {value : Bigint} (h : 0 ≤ value.val) :
    ∃ count, u64TryFrom value = .ok count ∧ (count.toNat : Int) = value.val := by
  have hBound : value.val < 2 ^ 63 := value.upper
  refine ⟨_, if_pos h, ?_⟩
  rw [UInt64.toNat_ofNat_of_lt' (by show value.val.toNat < 2 ^ 64; omega)]
  omega

theorem u64TryFrom_of_neg {value : Bigint} (h : value.val < 0) :
    ∃ reason, u64TryFrom value = .error (.unavailable reason) :=
  ⟨_, if_neg (by omega)⟩

namespace PostgresCounterStore

def connectClient (connectionString : String) : Prog Pg (Except PgError Unit) :=
  Prog.perform (E := Pg) (.connect connectionString)

def connect (config : PostgresCounterStoreConfig) :
    Prog Pg (Except PostgresAdapterError PostgresCounterStore) := do
  match ← connectClient config.connectionString with
  | .error error => return .error (.connect error)
  | .ok () =>
    match ← execute .init with
    | .error error => return .error (.initializeStore error)
    | .ok _ => return .ok { connectionString := config.connectionString }

def client (store : PostgresCounterStore) : Prog Pg (Except CounterStoreError Unit) := do
  return (← connectClient store.connectionString).mapError mapCounterStoreError

/-- One attempt of the loop: a new connection and the `UPDATE`. -/
def attempt (store : PostgresCounterStore) : Prog Pg (Except CounterStoreError Bigint) := do
  match ← store.client with
  | .error error => return .error error
  | .ok () => return (← execute .update).mapError mapCounterStoreError

/-- After a failed attempt: `INIT_SQL` on a new connection, its outcome ignored. -/
def recover (store : PostgresCounterStore) : Prog Pg Unit := do
  match ← store.client with
  | .error _ => return ()
  | .ok () => let _ ← execute .init

/-- The loop, with the retries that remain and the next delay in milliseconds. -/
def loop (store : PostgresCounterStore) :
    (retries delay : Nat) → Prog Pg (Except CounterStoreError UInt64)
  | 0, _ => do
    match ← store.attempt with
    | .ok row => return u64TryFrom row
    | .error error => return .error error
  | retries + 1, delay => do
    match ← store.attempt with
    | .ok row => return u64TryFrom row
    | .error _ =>
      store.recover
      sleep delay
      store.loop retries (delay * 2)

def nextVisitorCount (store : PostgresCounterStore) : Prog Pg (Except CounterStoreError UInt64) :=
  store.loop 3 250

def health (store : PostgresCounterStore) : Prog Pg (Except CounterStoreError Unit) := do
  match ← store.client with
  | .error error => return .error error
  | .ok () =>
    match ← execute .selectOne with
    | .error error => return .error (mapCounterStoreError error)
    | .ok _ => return .ok ()

def port (store : PostgresCounterStore) : CounterStore Pg where
  nextVisitorCount := store.nextVisitorCount
  health := store.health
  storageName := "postgres"

end PostgresCounterStore

/-! ### Attempts and recoveries under any replies -/

section

variable {σ : Type} (answer : (op : Op) → σ → op.Reply × σ) {s s' : σ}
variable {store : PostgresCounterStore} {error : PgError}

theorem PostgresCounterStore.client_run :
    store.client.run answer s =
      ((answer (.connect store.connectionString) s).1.mapError mapCounterStoreError,
        (answer (.connect store.connectionString) s).2) := rfl

theorem PostgresCounterStore.attempt_run_error
    (hConnect : answer (.connect store.connectionString) s = (.error error, s')) :
    store.attempt.run answer s = (.error (mapCounterStoreError error), s') := by
  rw [attempt, Prog.run_bind, client_run, hConnect]
  rfl

theorem PostgresCounterStore.attempt_run_ok
    (hConnect : answer (.connect store.connectionString) s = (.ok (), s')) :
    store.attempt.run answer s =
      ((answer (.exec .update) s').1.mapError mapCounterStoreError,
        (answer (.exec .update) s').2) := by
  rw [attempt, Prog.run_bind, client_run, hConnect]
  rfl

theorem PostgresCounterStore.recover_run_error
    (hConnect : answer (.connect store.connectionString) s = (.error error, s')) :
    store.recover.run answer s = ((), s') := by
  rw [recover, Prog.run_bind, client_run, hConnect]
  rfl

theorem PostgresCounterStore.recover_run_ok
    (hConnect : answer (.connect store.connectionString) s = (.ok (), s')) :
    store.recover.run answer s = ((), (answer (.exec .init) s').2) := by
  rw [recover, Prog.run_bind, client_run, hConnect]
  rfl

theorem PostgresCounterStore.loop_run_row {retries delay : Nat} {row : Bigint}
    (hAttempt : store.attempt.run answer s = (.ok row, s')) :
    (store.loop retries delay).run answer s = (u64TryFrom row, s') := by
  cases retries <;> rw [loop, Prog.run_bind, hAttempt] <;> rfl

theorem PostgresCounterStore.loop_run_last {delay : Nat} {failure : CounterStoreError}
    (hAttempt : store.attempt.run answer s = (.error failure, s')) :
    (store.loop 0 delay).run answer s = (.error failure, s') := by
  rw [loop, Prog.run_bind, hAttempt]
  rfl

theorem PostgresCounterStore.loop_run_again {retries delay : Nat} {failure : CounterStoreError}
    {s'' : σ} (hAttempt : store.attempt.run answer s = (.error failure, s'))
    (hRecover : store.recover.run answer s' = ((), s'')) :
    (store.loop (retries + 1) delay).run answer s =
      (store.loop retries (delay * 2)).run answer (answer (.sleep delay) s'').2 := by
  rw [loop, Prog.run_bind, hAttempt]
  show (store.recover >>= fun _ => sleep delay >>= fun _ =>
    store.loop retries (delay * 2)).run answer s' = _
  rw [Prog.run_bind, hRecover]
  rfl

end

/-! ### Values decided by a row -/

/-- The value that a row of the `UPDATE` decides, through `f`. -/
def rowValue {α : Type} (f : Bigint → α) : (op : Op) → op.Reply → Option α
  | .exec .update, .ok row => some (f row)
  | _, _ => none

theorem rowValue_map {α β : Type} (f : Bigint → α) (g : α → β) (op : Op) (reply : op.Reply) :
    (rowValue f op reply).map g = rowValue (g ∘ f) op reply := by
  rcases op with _ | (_ | _ | _) | _ <;> try rfl
  cases reply <;> rfl

/-- A row of the `UPDATE` ends the call at once with that row's value, and without one the call
fails. -/
theorem PostgresCounterStore.loop_follows (store : PostgresCounterStore) (retries delay : Nat) :
    (store.loop retries delay).Follows (rowValue u64TryFrom) fun result =>
      ∃ error, result = .error error := by
  induction retries generalizing delay with
  | zero =>
    rw [loop]
    intro reply
    cases reply with
    | error error => exact ⟨_, rfl⟩
    | ok _ =>
      intro reply
      cases reply with
      | error error => exact ⟨_, rfl⟩
      | ok row => rfl
  | succ retries ih =>
    have again : ∀ delay : Nat, (store.recover >>= fun _ => sleep delay >>= fun _ =>
        store.loop retries (delay * 2)).Follows (rowValue u64TryFrom) fun result =>
          ∃ error, result = .error error := by
      intro delay reply
      cases reply with
      | error _ => exact fun _ => ih _
      | ok _ => exact fun _ _ => ih _
    rw [loop]
    intro reply
    cases reply with
    | error error => exact again delay
    | ok _ =>
      intro reply
      cases reply with
      | error error => exact again delay
      | ok row => rfl

end HelloCounter.Postgres
