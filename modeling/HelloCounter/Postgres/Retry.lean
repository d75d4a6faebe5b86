import HelloCounter.Postgres.Store
import Mathlib

/-! The retry loop against every stream of outcomes.  The environment serves the attempts and the
recovery steps from two streams, in the order in which the loop makes them, and logs them and the
waits between them. -/

namespace HelloCounter.Postgres

open Effect

inductive AttemptOutcome where
  | connectFails (error : PgError)
  | updateFails (error : PgError)
  | row (value : Bigint)

inductive RecoveryOutcome where
  | connectFails (error : PgError)
  | initFails (error : PgError)
  | succeeds

namespace AttemptOutcome

def result : AttemptOutcome → Except PgError Bigint
  | connectFails error => .error error
  | updateFails error => .error error
  | row value => .ok value

def failed (outcome : AttemptOutcome) : Bool := !outcome.result.isOk

end AttemptOutcome

structure Outcomes where
  attempts : Nat → AttemptOutcome
  recoveries : Nat → RecoveryOutcome

inductive Activity where
  | attempt
  | recovery
  | wait (millis : Nat)
deriving DecidableEq

def Activity.millis : Activity → Nat
  | wait millis => millis
  | _ => 0

/-- What the loop has done, and whether the last attempt has failed without a wait since. -/
structure Progress where
  log : List Activity
  failed : Bool

namespace Progress

def start : Progress := ⟨[], false⟩

def attempts (progress : Progress) : Nat := progress.log.count .attempt

def recoveries (progress : Progress) : Nat := progress.log.count .recovery

def waited (progress : Progress) : Nat := (progress.log.map Activity.millis).sum

def add (progress : Progress) (activity : Activity) : Progress :=
  { progress with log := progress.log ++ [activity] }

end Progress

/-- The replies to the loop.  A connection after a failed attempt is for the recovery step, and
every other one is for the next attempt. -/
def Outcomes.answer (outcomes : Outcomes) : (op : Op) → Progress → op.Reply × Progress
  | .connect _, progress =>
    if progress.failed then
      match outcomes.recoveries progress.recoveries with
      | .connectFails error => (.error error, progress.add .recovery)
      | _ => (.ok (), progress)
    else
      match outcomes.attempts progress.attempts with
      | .connectFails error => (.error error, { progress.add .attempt with failed := true })
      | _ => (.ok (), progress)
  | .exec .update, progress =>
    match outcomes.attempts progress.attempts with
    | .row value => (.ok value, progress.add .attempt)
    | .updateFails error => (.error error, { progress.add .attempt with failed := true })
    | .connectFails error => (.error error, { progress.add .attempt with failed := true })
  | .exec .init, progress =>
    match outcomes.recoveries progress.recoveries with
    | .initFails error => (.error error, progress.add .recovery)
    | _ => (.ok (), progress.add .recovery)
  | .exec .selectOne, progress => (.ok (), progress)
  | .sleep millis, progress => ((), { progress.add (.wait millis) with failed := false })

/-! ### One round of the loop -/

variable (outcomes : Outcomes) (store : PostgresCounterStore) {progress : Progress}

theorem attempt_run (ready : progress.failed = false) :
    store.attempt.run outcomes.answer progress =
      ((outcomes.attempts progress.attempts).result.mapError mapCounterStoreError,
        { progress.add .attempt with
          failed := (outcomes.attempts progress.attempts).failed }) := by
  have hConnect : outcomes.answer (.connect store.connectionString) progress =
      match outcomes.attempts progress.attempts with
      | .connectFails error => (.error error, { progress.add .attempt with failed := true })
      | _ => (.ok (), progress) := if_neg (by simp [ready])
  cases hOutcome : outcomes.attempts progress.attempts with
  | connectFails error =>
    rw [hOutcome] at hConnect
    exact PostgresCounterStore.attempt_run_error _ hConnect
  | updateFails error =>
    rw [hOutcome] at hConnect
    rw [PostgresCounterStore.attempt_run_ok _ hConnect]
    simp only [Outcomes.answer, hOutcome]
    rfl
  | row value =>
    rw [hOutcome] at hConnect
    rw [PostgresCounterStore.attempt_run_ok _ hConnect]
    simp only [Outcomes.answer, hOutcome]
    show _ = (_, Progress.mk _ false)
    rw [← ready]
    rfl

theorem recover_run (failed : progress.failed = true) :
    store.recover.run outcomes.answer progress = ((), progress.add .recovery) := by
  have hConnect : outcomes.answer (.connect store.connectionString) progress =
      match outcomes.recoveries progress.recoveries with
      | .connectFails error => (.error error, progress.add .recovery)
      | _ => (.ok (), progress) := if_pos failed
  cases hOutcome : outcomes.recoveries progress.recoveries with
  | connectFails error =>
    rw [hOutcome] at hConnect
    exact PostgresCounterStore.recover_run_error _ hConnect
  | initFails error =>
    rw [hOutcome] at hConnect
    rw [PostgresCounterStore.recover_run_ok _ hConnect]
    simp only [Outcomes.answer, hOutcome]
  | succeeds =>
    rw [hOutcome] at hConnect
    rw [PostgresCounterStore.recover_run_ok _ hConnect]
    simp only [Outcomes.answer, hOutcome]

/-! ### The whole loop -/

/-- How many attempts from index `i` on fail before the first row, at most `retries`. -/
def failures (attempts : Nat → AttemptOutcome) : (retries i : Nat) → Nat
  | 0, _ => 0
  | retries + 1, i => if (attempts i).failed then failures attempts retries (i + 1) + 1 else 0

theorem failures_spec (attempts : Nat → AttemptOutcome) (retries i : Nat) :
    failures attempts retries i ≤ retries ∧
      (∀ j < failures attempts retries i, (attempts (i + j)).failed = true) ∧
      (failures attempts retries i < retries →
        (attempts (i + failures attempts retries i)).failed = false) := by
  induction retries generalizing i with
  | zero =>
    exact ⟨le_refl 0, fun j hj => absurd hj (Nat.not_lt_zero j), fun h => absurd h (by omega)⟩
  | succ retries ih =>
    obtain ⟨hLe, hFailed, hRow⟩ := ih (i + 1)
    rw [failures]
    split
    · rename_i hFirst
      refine ⟨by omega, ?_, ?_⟩
      · intro j hj
        rcases j with _ | j
        · exact hFirst
        · rw [Nat.add_comm j 1, ← Nat.add_assoc]
          exact hFailed j (by omega)
      · intro hLt
        rw [Nat.add_comm _ 1, ← Nat.add_assoc]
        exact hRow (by omega)
    · rename_i hFirst
      exact ⟨Nat.zero_le _, fun j hj => absurd hj (Nat.not_lt_zero j),
        fun _ => by simpa using hFirst⟩

/-- `n` failed attempts, each with its recovery step and its wait, and one more attempt. -/
def retryLog (delay n : Nat) : List Activity :=
  (List.range n).flatMap (fun i => [.attempt, .recovery, .wait (delay * 2 ^ i)]) ++ [.attempt]

theorem retryLog_succ (delay n : Nat) :
    retryLog delay (n + 1) = .attempt :: .recovery :: .wait delay :: retryLog (delay * 2) n := by
  simp only [retryLog, List.range_succ_eq_map, List.flatMap_cons, List.flatMap_map, pow_succ',
    pow_zero, mul_one, List.cons_append, List.nil_append, mul_assoc]

def AttemptOutcome.answer (outcome : AttemptOutcome) : Except CounterStoreError UInt64 :=
  match outcome.result with
  | .ok next => u64TryFrom next
  | .error error => .error (mapCounterStoreError error)

/-- A round without a retry: its outcome is a row, or no retries remain. -/
theorem loop_run_end {retries delay : Nat} (ready : progress.failed = false)
    (ends : (outcomes.attempts progress.attempts).failed = true → retries = 0) :
    (store.loop retries delay).run outcomes.answer progress =
      ((outcomes.attempts progress.attempts).answer, { progress.add .attempt with
        failed := (outcomes.attempts progress.attempts).failed }) := by
  have hAttempt := attempt_run outcomes store ready
  rw [AttemptOutcome.answer]
  rw [AttemptOutcome.failed] at ends
  cases hResult : (outcomes.attempts progress.attempts).result with
  | ok next =>
    rw [hResult] at hAttempt
    exact PostgresCounterStore.loop_run_row _ hAttempt
  | error error =>
    rw [hResult] at hAttempt ends
    obtain rfl := ends rfl
    exact PostgresCounterStore.loop_run_last _ hAttempt

theorem loop_run_retry {retries delay : Nat} (ready : progress.failed = false)
    (failed : (outcomes.attempts progress.attempts).failed = true) :
    (store.loop (retries + 1) delay).run outcomes.answer progress =
      (store.loop retries (delay * 2)).run outcomes.answer
        ⟨progress.log ++ [.attempt, .recovery, .wait delay], false⟩ := by
  have hAttempt := attempt_run outcomes store ready
  have hRecover : store.recover.run outcomes.answer ⟨progress.log ++ [.attempt], true⟩ =
      ((), ⟨progress.log ++ [.attempt] ++ [.recovery], true⟩) := recover_run outcomes store rfl
  rw [failed] at hAttempt
  rw [AttemptOutcome.failed] at failed
  cases hResult : (outcomes.attempts progress.attempts).result with
  | ok next =>
    rw [hResult] at failed
    exact absurd failed Bool.false_ne_true
  | error error =>
    rw [hResult] at hAttempt
    rw [PostgresCounterStore.loop_run_again _ hAttempt hRecover]
    simp only [Outcomes.answer, Progress.add, List.append_assoc, List.cons_append, List.nil_append]

/-- The loop ends with the first row, or with the attempt after which no retries remain. -/
theorem loop_run (retries delay : Nat) (ready : progress.failed = false) :
    (store.loop retries delay).run outcomes.answer progress =
      ((outcomes.attempts (progress.attempts +
          failures outcomes.attempts retries progress.attempts)).answer,
        { log := progress.log ++
            retryLog delay (failures outcomes.attempts retries progress.attempts)
          failed := (outcomes.attempts (progress.attempts +
            failures outcomes.attempts retries progress.attempts)).failed }) := by
  induction retries generalizing delay progress with
  | zero => exact loop_run_end outcomes store ready fun _ => rfl
  | succ retries ih =>
    rw [failures]
    split
    · rename_i hFailed
      have hAttempts : Progress.attempts
          ⟨progress.log ++ [.attempt, .recovery, .wait delay], false⟩ = progress.attempts + 1 := by
        simp [Progress.attempts, List.count_append]
      rw [loop_run_retry outcomes store ready hFailed, ih (delay * 2) rfl, hAttempts,
        retryLog_succ]
      simp only [List.append_assoc, List.cons_append, List.nil_append, Nat.add_assoc,
        Nat.add_comm 1]
    · rename_i hFailed
      exact loop_run_end outcomes store ready fun h => absurd h hFailed

/-- The outcomes before index `k` are errors, and the one at `k` is a row with `value`. -/
def Outcomes.FirstRow (k : Nat) (value : Bigint) : Prop :=
  (∀ i < k, (outcomes.attempts i).failed = true) ∧ outcomes.attempts k = .row value

theorem failures_firstRow {k : Nat} {value : Bigint} (first : outcomes.FirstRow k value)
    (retries : Nat) : failures outcomes.attempts retries 0 = min k retries := by
  obtain ⟨hLe, hFailed, hRow⟩ := failures_spec outcomes.attempts retries 0
  obtain ⟨hBefore, hValue⟩ := first
  have hNotFailed : (outcomes.attempts k).failed = false := by
    rw [hValue]
    rfl
  simp only [Nat.zero_add] at hFailed hRow
  rcases Nat.lt_trichotomy (failures outcomes.attempts retries 0) k with hLt | hEq | hGt
  · have := mt hRow (by rw [hBefore _ hLt]; decide)
    omega
  · omega
  · rw [hFailed k hGt] at hNotFailed
    exact absurd hNotFailed.symm Bool.false_ne_true

theorem failures_all {retries : Nat}
    (failed : ∀ i < retries, (outcomes.attempts i).failed = true) :
    failures outcomes.attempts retries 0 = retries := by
  obtain ⟨hLe, -, hRow⟩ := failures_spec outcomes.attempts retries 0
  simp only [Nat.zero_add] at hRow
  by_contra hNe
  have hLt : failures outcomes.attempts retries 0 < retries := by omega
  have := hRow hLt
  rw [failed _ hLt] at this
  exact absurd this.symm Bool.false_ne_true

theorem retryLog_count (delay n : Nat) : (retryLog delay n).count .attempt = n + 1 := by
  induction n generalizing delay with
  | zero => rfl
  | succ n ih => simp [retryLog_succ, ih]

theorem retryLog_waited (delay n : Nat) :
    ((retryLog delay n).map Activity.millis).sum = delay * (2 ^ n - 1) := by
  induction n generalizing delay with
  | zero => simp [retryLog, Activity.millis]
  | succ n ih =>
    have := Nat.one_le_two_pow (n := n)
    obtain ⟨m, hm⟩ := Nat.exists_eq_add_of_le this
    simp only [retryLog_succ, List.map_cons, List.sum_cons, ih, Activity.millis, pow_succ, hm]
    rw [show (1 + m) * 2 - 1 = 1 + 2 * m by omega, show 1 + m - 1 = m by omega]
    ring

/-- What a call does against the streams `outcomes`. -/
structure Outcomes.Handled (result : Except CounterStoreError UInt64) (final : Progress) :
    Prop where
  log : ∃ n ≤ 3, final.log = retryLog 250 n
  waited : final.waited ≤ 1750
  attempts : ∀ k value, outcomes.FirstRow k value → final.attempts = min (k + 1) 4
  row : ∀ k value, outcomes.FirstRow k value → k ≤ 3 → 0 ≤ value.val →
    ∃ count, result = .ok count ∧ (count.toNat : Int) = value.val
  negative : ∀ k value, outcomes.FirstRow k value → k ≤ 3 → value.val < 0 →
    ∃ reason, result = .error (.unavailable reason)
  exhausted : (∀ i < 4, (outcomes.attempts i).failed = true) → final.attempts = 4 ∧
    ∀ error, (outcomes.attempts 3).result = .error error →
      result = .error (mapCounterStoreError error)

/-- Whatever the attempts and the recovery steps give, a call makes one attempt more than errors
precede the first row, and at most four; each failed attempt but the last is followed by one
recovery step and by a wait that doubles; and no recovery step decides the result. -/
theorem nextVisitorCount_retries :
    ∃ result final, store.nextVisitorCount.run outcomes.answer Progress.start = (result, final) ∧
      outcomes.Handled result final ∧
      ∀ recoveries, (store.nextVisitorCount.run
        (Outcomes.mk outcomes.attempts recoveries).answer Progress.start).1 = result := by
  have hRun (recoveries : Nat → RecoveryOutcome) :
      store.nextVisitorCount.run (Outcomes.mk outcomes.attempts recoveries).answer Progress.start =
        ((outcomes.attempts (0 + failures outcomes.attempts 3 0)).answer, Progress.mk
          (retryLog 250 (failures outcomes.attempts 3 0))
          (outcomes.attempts (0 + failures outcomes.attempts 3 0)).failed) :=
    loop_run _ store 3 250 rfl
  simp only [Nat.zero_add] at hRun
  refine ⟨_, _, hRun outcomes.recoveries, ?_, fun recoveries => by rw [hRun]⟩
  have hLe : failures outcomes.attempts 3 0 ≤ 3 := (failures_spec outcomes.attempts 3 0).1
  constructor
  case log => exact ⟨_, hLe, rfl⟩
  case waited =>
    show ((retryLog 250 _).map Activity.millis).sum ≤ 1750
    rw [retryLog_waited]
    have : 2 ^ failures outcomes.attempts 3 0 ≤ 2 ^ 3 := Nat.pow_le_pow_right (by decide) hLe
    omega
  case attempts =>
    intro k value first
    show (retryLog 250 _).count .attempt = _
    rw [retryLog_count, failures_firstRow outcomes first]
    omega
  case row =>
    intro k value first hk hValue
    rw [failures_firstRow outcomes first, Nat.min_eq_left hk, first.2]
    exact u64TryFrom_of_nonneg hValue
  case negative =>
    intro k value first hk hValue
    rw [failures_firstRow outcomes first, Nat.min_eq_left hk, first.2]
    exact u64TryFrom_of_neg hValue
  case exhausted =>
    intro failed
    rw [failures_all outcomes fun i hi => failed i (by omega)]
    refine ⟨retryLog_count 250 3, ?_⟩
    intro error hError
    rw [AttemptOutcome.answer, hError]

end HelloCounter.Postgres
