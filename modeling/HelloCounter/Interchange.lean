import HelloCounter.Memory.Store
import HelloCounter.Postgres.Store
import Mathlib

/-! The two stores behind the service, used by one caller: the same requests get the same results
from either, up to the storage name, while the counter fits a `BIGINT`. -/

namespace HelloCounter

open Effect

/-- The replies of an uncontended mutex with counter `n`. -/
def Memory.answer : (op : Memory.Op) → UInt64 → op.Reply × UInt64
  | .lock, n => ((), n)
  | .increment, n => ((), n + 1)
  | .read, n => (n, n)
  | .unlock, n => ((), n)

/-- The replies of a primary without faults. -/
def Postgres.answer : (op : Postgres.Op) → Postgres.Database → op.Reply × Postgres.Database
  | .connect _, db => (.ok (), db)
  | .exec sql, db => ((db.exec sql).1.mapError .statement, (db.exec sql).2)
  | .sleep _, db => ((), db)

inductive ServiceRequest where
  | hello
  | health
deriving DecidableEq

inductive ServiceResult where
  | hello (result : Except ApplicationError HelloResponse)
  | health (result : Except ApplicationError HealthResponse)
deriving DecidableEq

def HelloWorldService.serve {E : Interface} (service : HelloWorldService E) :
    ServiceRequest → Prog E ServiceResult
  | .hello => do return .hello (← service.hello)
  | .health => do return .health (← service.health)

def ServiceResult.withoutStorage : ServiceResult → ServiceResult
  | .hello result => .hello result
  | .health result => .health (result.map fun response => { response with storage := "" })

open Postgres in
theorem Postgres.connect_run (config : PostgresCounterStoreConfig) :
    (PostgresCounterStore.connect config).run Postgres.answer ⟨none⟩ =
      (.ok { connectionString := config.connectionString }, (Database.mk none).init) := rfl

open Postgres in
theorem Postgres.nextVisitorCount_run (store : PostgresCounterStore) {db : Database}
    {value : Bigint} (hRow : db.row1 = some value) (hNext : value.val + 1 < 2 ^ 63) :
    ∃ next after, store.nextVisitorCount.run Postgres.answer db = (u64TryFrom next, after) ∧
      next.val = value.val + 1 ∧ after.row1 = some next := by
  obtain ⟨next, after, hUpdate, hVal, hRow'⟩ := Database.update_ok hRow hNext
  refine ⟨next, after, ?_, hVal, hRow'⟩
  have hAttempt : store.attempt.run Postgres.answer db = (.ok next, after) := by
    show (((db.exec .update).1.mapError PgError.statement).mapError mapCounterStoreError,
      (db.exec .update).2) = _
    rw [Database.exec, hUpdate]
    rfl
  rw [PostgresCounterStore.nextVisitorCount, PostgresCounterStore.loop, Prog.run_bind, hAttempt]
  rfl

/-- The counter is the value of row 1, and the requests to come keep it in range. -/
def SameCount (requests : List ServiceRequest) (n : UInt64) (db : Postgres.Database) : Prop :=
  (∃ row, db.row1 = some row ∧ row.val = n.toNat) ∧ n.toNat + requests.count .hello < 2 ^ 63

theorem SameCount.tail {request : ServiceRequest} {requests : List ServiceRequest} {n : UInt64}
    {db : Postgres.Database} (same : SameCount (request :: requests) n db) :
    SameCount requests n db := by
  obtain ⟨hRow, hBound⟩ := same
  rw [List.count_cons] at hBound
  exact ⟨hRow, by omega⟩

theorem serve_same (mode : GreetingMode) (store : Postgres.PostgresCounterStore)
    {request : ServiceRequest} {requests : List ServiceRequest} {n : UInt64}
    {db : Postgres.Database} (same : SameCount (request :: requests) n db) :
    ∃ result result' n' db',
      ((HelloWorldService.mk mode Memory.MemoryCounterStore.port).serve request).run
        Memory.answer n = (result, n') ∧
      ((HelloWorldService.mk mode store.port).serve request).run Postgres.answer db =
        (result', db') ∧
      result.withoutStorage = result'.withoutStorage ∧ SameCount requests n' db' := by
  cases request with
  | health => exact ⟨_, _, n, db, rfl, rfl, rfl, same.tail⟩
  | hello =>
    cases mode with
    | plain => exact ⟨_, _, n, db, rfl, rfl, rfl, same.tail⟩
    | counter =>
      obtain ⟨⟨row, hRow, hVal⟩, hBound⟩ := same
      rw [List.count_cons_self] at hBound
      obtain ⟨next, after, hRun, hNext, hRow'⟩ :=
        Postgres.nextVisitorCount_run store hRow (by omega)
      have hSucc : (n + 1).toNat = n.toNat + 1 :=
        Memory.increment_toNat (by show n.toNat + 1 < 2 ^ 64; omega)
      have hCount : Postgres.u64TryFrom next = .ok (n + 1) := by
        rw [Postgres.u64TryFrom, if_pos (by omega)]
        congr 1
        apply UInt64.toNat_inj.mp
        rw [hSucc, UInt64.toNat_ofNat_of_lt' (by show next.val.toNat < 2 ^ 64; omega)]
        omega
      refine ⟨.hello (HelloWorldService.counted (.ok (n + 1))),
        .hello (HelloWorldService.counted (.ok (n + 1))), n + 1, after, rfl, ?_, rfl,
        ⟨next, hRow', by omega⟩, by omega⟩
      show ((store.nextVisitorCount >>= fun result =>
        Prog.ret (HelloWorldService.counted result)) >>= fun result =>
          Prog.ret (ServiceResult.hello result)).run Postgres.answer db = _
      simp only [Prog.run_bind, hRun, hCount, Prog.run_ret]

/-- A fresh memory store and a Postgres store that connected to an empty database give the same
results, up to the storage name, with the counter equal to the value of row 1 after every request,
as long as fewer than `2 ^ 63` greetings are requested. -/
theorem stores_interchangeable (mode : GreetingMode)
    (config : Postgres.PostgresCounterStoreConfig) (requests : List ServiceRequest)
    (bound : requests.count .hello < 2 ^ 63) :
    ∃ store db,
      (Postgres.PostgresCounterStore.connect config).run Postgres.answer ⟨none⟩ =
        (.ok store, db) ∧
      List.Forall₂ (fun a b => a.1.withoutStorage = b.1.withoutStorage ∧
          ∃ row, b.2.row1 = some row ∧ row.val = a.2.toNat)
        (Prog.results Memory.answer
          (HelloWorldService.mk mode Memory.MemoryCounterStore.port).serve requests 0)
        (Prog.results Postgres.answer
          (HelloWorldService.mk mode store.port).serve requests db) := by
  refine ⟨_, _, Postgres.connect_run config, ?_⟩
  refine Prog.results_forall₂ _ _ (R := SameCount) ?_ requests _ _ ?_
  · intro request requests n db same
    obtain ⟨result, result', n', db', hMemory, hPostgres, hResult, same'⟩ :=
      serve_same mode ⟨config.connectionString⟩ same
    rw [hMemory, hPostgres]
    exact ⟨⟨hResult, same'.1⟩, same'⟩
  · refine ⟨⟨.zero, rfl, rfl⟩, ?_⟩
    simpa using bound

theorem stores_interchangeable_twice :
    List.Forall₂ (fun a b => a.1.withoutStorage = b.1.withoutStorage ∧
        ∃ row, b.2.row1 = some row ∧ row.val = a.2.toNat)
      (Prog.results Memory.answer
        (HelloWorldService.mk .counter Memory.MemoryCounterStore.port).serve
        [.hello, .health, .hello] 0)
      (Prog.results Postgres.answer
        (HelloWorldService.mk .counter (Postgres.PostgresCounterStore.mk "host=haproxy").port).serve
        [.hello, .health, .hello] (Postgres.Database.mk none).init) := by
  obtain ⟨store, db, hConnect, hResults⟩ :=
    stores_interchangeable .counter ⟨"host=haproxy"⟩ [.hello, .health, .hello] (by decide)
  obtain ⟨hStore, rfl⟩ := Prod.mk.inj ((Postgres.connect_run _).symm.trans hConnect)
  cases hStore
  exact hResults

end HelloCounter
