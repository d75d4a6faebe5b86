import HelloCounter.Interchange

/-! Self-healing of the Postgres store on a primary without faults and without other writers: a
missing table or row 1 is put back by the recovery step of the first retry, a live value goes on
from where it is, and a value at the end of its range stays as it is. -/

namespace HelloCounter.Postgres

open Effect

deriving instance DecidableEq for Op

variable (store : PostgresCounterStore)

/-- The operations of an attempt and of a recovery step whose connections open. -/
def attemptOps : List Op := [.connect store.connectionString, .exec .update]

def recoverOps : List Op := [.connect store.connectionString, .exec .init]

variable {db after : Database} {ops : List Op}

theorem connect_traced :
    Prog.traced (E := Pg) answer (.connect store.connectionString) (db, ops) =
      (.ok (), db, ops ++ [.connect store.connectionString]) := rfl

theorem attempt_run_traced :
    store.attempt.run (Prog.traced answer) (db, ops) =
      ((db.update.1.mapError PgError.statement).mapError mapCounterStoreError, db.update.2,
        ops ++ attemptOps store) := by
  rw [PostgresCounterStore.attempt_run_ok _ (connect_traced store)]
  show (_, _, ops ++ [.connect store.connectionString] ++ [.exec .update]) = _
  rw [List.append_assoc]
  rfl

theorem recover_run_traced :
    store.recover.run (Prog.traced answer) (db, ops) = ((), db.init, ops ++ recoverOps store) := by
  rw [PostgresCounterStore.recover_run_ok _ (connect_traced store)]
  show (_, _, ops ++ [.connect store.connectionString] ++ [.exec .init]) = _
  rw [List.append_assoc]
  rfl

/-- Row 1 holds a value that can grow: the attempt returns the next one. -/
theorem loop_run_live {retries delay : Nat} {next : Bigint}
    (hUpdate : db.update = (.ok next, after)) :
    (store.loop retries delay).run (Prog.traced answer) (db, ops) =
      (u64TryFrom next, after, ops ++ attemptOps store) := by
  have hAttempt : store.attempt.run (Prog.traced answer) (db, ops) =
      (.ok next, after, ops ++ attemptOps store) := by
    rw [attempt_run_traced, hUpdate]
    rfl
  exact PostgresCounterStore.loop_run_row _ hAttempt

/-- An `UPDATE` that fails: the loop goes on after `INIT_SQL` and a wait. -/
theorem loop_run_failed {retries delay : Nat} {failure : DbFailure}
    (hUpdate : db.update = (.error failure, db)) :
    (store.loop (retries + 1) delay).run (Prog.traced answer) (db, ops) =
      (store.loop retries (delay * 2)).run (Prog.traced answer)
        (db.init, ops ++ attemptOps store ++ recoverOps store ++ [.sleep delay]) := by
  have hAttempt : store.attempt.run (Prog.traced answer) (db, ops) =
      (.error (mapCounterStoreError (.statement failure)), db, ops ++ attemptOps store) := by
    rw [attempt_run_traced, hUpdate]
    rfl
  rw [PostgresCounterStore.loop_run_again _ hAttempt (recover_run_traced store)]
  rfl

/-- A value at the end of its range: every attempt fails and every recovery step keeps all rows. -/
theorem loop_run_full (retries delay : Nat) {value : Bigint} (hRow : db.row1 = some value)
    (hMax : value.val = 2 ^ 63 - 1) :
    ∃ error ops', (store.loop retries delay).run (Prog.traced answer) (db, ops) =
        (.error error, db, ops') ∧
      ops'.count (.exec .init) = ops.count (.exec .init) + retries := by
  have hUpdate : db.update = (.error .outOfRange, db) := by
    rcases db with ⟨_ | counters⟩
    · cases hRow
    · have hRow' : counters 1 = some value := hRow
      have hSucc : value.succ? = none := dif_neg (by omega)
      simp [Database.update, hRow', hSucc]
  induction retries generalizing delay ops with
  | zero =>
    have hAttempt : store.attempt.run (Prog.traced answer) (db, ops) =
        (.error (mapCounterStoreError (.statement .outOfRange)), db, ops ++ attemptOps store) := by
      rw [attempt_run_traced, hUpdate]
      rfl
    refine ⟨_, _, PostgresCounterStore.loop_run_last _ hAttempt, ?_⟩
    simp [attemptOps, List.count_append]
  | succ retries ih =>
    rw [loop_run_failed store hUpdate, Database.init_of_row1 hRow]
    obtain ⟨error, ops', hRun, hCount⟩ :=
      @ih (ops ++ attemptOps store ++ recoverOps store ++ [.sleep delay]) (delay * 2)
    refine ⟨error, ops', hRun, ?_⟩
    rw [hCount]
    simp [attemptOps, recoverOps, List.count_append]
    omega

/-! ### The whole call -/

/-- A call on `db` returns `count` after at most two `UPDATE`s, keeps it in row 1, and leaves the
other rows as they are; and `hello` answers with `count`. -/
structure Healed (db : Database) (count : UInt64) : Prop where
  result : (store.nextVisitorCount.run answer db).1 = .ok count
  updates : (store.nextVisitorCount.ops answer db).count (.exec .update) ≤ 2
  row1 : ∃ next, (store.nextVisitorCount.run answer db).2.row1 = some next ∧
    next.val = count.toNat
  others : ∀ id, id ≠ 1 → (store.nextVisitorCount.run answer db).2.row id = db.row id
  hello : ∃ number : VisitorCount, number.get = count ∧
    ((HelloWorldService.mk .counter store.port).hello.run answer db).1 =
      .ok (HelloWorldService.numbered number)

/-- The call ended with the row `next`. -/
theorem healed_of_run {next : Bigint} (hPos : 0 < next.val)
    (hRun : store.nextVisitorCount.run (Prog.traced answer) (db, []) =
      (u64TryFrom next, after, ops))
    (hUpdates : ops.count (.exec .update) ≤ 2) (hRow1 : after.row1 = some next)
    (hOthers : ∀ id, id ≠ 1 → after.row id = db.row id) :
    ∃ count, (count.toNat : Int) = next.val ∧ Healed store db count := by
  obtain ⟨count, hCount, hVal⟩ := u64TryFrom_of_nonneg hPos.le
  obtain ⟨hValue, hOps⟩ := Prog.run_of_traced (E := Pg) answer hRun
  rw [hCount] at hValue
  have hNonzero : count ≠ 0 := by
    rintro rfl
    simp at hVal
    omega
  refine ⟨count, hVal, ?_⟩
  constructor
  case result => rw [hValue]
  case updates => rwa [hOps]
  case row1 => exact ⟨next, by rw [hValue, hRow1], hVal.symm⟩
  case others => rwa [hValue]
  case hello =>
    refine ⟨⟨count, hNonzero⟩, rfl, ?_⟩
    show ((store.nextVisitorCount >>= fun result =>
      Prog.ret (HelloWorldService.counted result)).run answer db).1 = _
    rw [Prog.run_bind, hValue]
    exact HelloWorldService.counted_ok ⟨count, hNonzero⟩

theorem healed_of_live {value : Bigint} (hRow : db.row1 = some value) (hPos : 0 ≤ value.val)
    (hNext : value.val < 2 ^ 63 - 1) :
    ∃ count : UInt64, (count.toNat : Int) = value.val + 1 ∧ Healed store db count := by
  obtain ⟨next, after, hUpdate, hVal, hRow'⟩ := Database.update_ok hRow (by omega)
  have hOthers : ∀ id, id ≠ 1 → after.row id = db.row id := by
    intro id hId
    have := db.row_update_of_ne hId
    rwa [hUpdate] at this
  rw [← hVal]
  exact healed_of_run store (by omega) (loop_run_live store hUpdate) (by simp [attemptOps]) hRow'
    hOthers

theorem healed_of_missing (hRow : db.row1 = none) : Healed store db 1 := by
  have hFailed : ∃ failure, db.update = (.error failure, db) := by
    rcases db.update_cases with hFailed | ⟨value, next, after, hSome, -⟩
    · exact hFailed
    · rw [hRow] at hSome
      cases hSome
  obtain ⟨failure, hFailed⟩ := hFailed
  have hRow' : db.init.row1 = some .zero := by
    rw [Database.row1_init, hRow]
    rfl
  obtain ⟨next, after, hUpdate, hVal, hAfter⟩ := Database.update_ok hRow' (by decide)
  have hOthers : ∀ id, id ≠ 1 → after.row id = db.row id := by
    intro id hId
    have := db.init.row_update_of_ne hId
    rwa [hUpdate, db.row_init_of_ne hId] at this
  have hOne : next.val = 1 := hVal
  obtain ⟨count, hCount, healed⟩ := healed_of_run store (by omega)
    ((loop_run_failed store hFailed).trans (loop_run_live store hUpdate))
    (by simp [attemptOps, recoverOps]) hAfter hOthers
  have hEq : count = 1 := by
    apply UInt64.toNat_inj.mp
    show count.toNat = 1
    omega
  rwa [hEq] at healed

/-- Without faults and other writers, a missing table or row is put back and counts as zero, a value
below the end of its range goes on by one, and at the end of the range the call fails with
`INIT_SQL` run three times and every row as before. -/
theorem nextVisitorCount_heals (db : Database) :
    (db.counters = none → Healed store db 1) ∧
    (∀ counters, db.counters = some counters → counters 1 = none → Healed store db 1) ∧
    (∀ value, db.row 1 = some value → 0 ≤ value.val → value.val < 2 ^ 63 - 1 →
      ∃ count : UInt64, (count.toNat : Int) = value.val + 1 ∧ Healed store db count) ∧
    (∀ value, db.row 1 = some value → value.val = 2 ^ 63 - 1 →
      (∃ error, (store.nextVisitorCount.run answer db).1 = .error error) ∧
      (store.nextVisitorCount.ops answer db).count (.exec .init) = 3 ∧
      ∀ id, (store.nextVisitorCount.run answer db).2.row id = db.row id) := by
  refine ⟨?_, ?_, fun value => healed_of_live store, ?_⟩
  · intro hNone
    exact healed_of_missing store (by simp [Database.row1, hNone])
  · intro counters hSome hRow
    exact healed_of_missing store (by simp [Database.row1, hSome, hRow])
  · intro value hRow hMax
    obtain ⟨error, ops, hRun, hCount⟩ := @loop_run_full store db [] 3 250 _ hRow hMax
    obtain ⟨hValue, hOps⟩ := Prog.run_of_traced (E := Pg) answer hRun
    rw [PostgresCounterStore.nextVisitorCount, hValue, hOps]
    exact ⟨⟨error, rfl⟩, hCount, fun id => rfl⟩

end HelloCounter.Postgres
