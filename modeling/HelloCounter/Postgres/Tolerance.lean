import HelloCounter.Library.Faults
import HelloCounter.Postgres.Accounting
import HelloCounter.Postgres.Fleet

/-! The connection faults that a request survives.  While row 1 is in range, a page view fails only
after four faults of its own connections, whatever the other requests of all processes do; a health
check and a start-up fail only after one. -/

namespace HelloCounter.Postgres

open Effect Schedule Http

/-- The rows that a statement returns while row 1 is in range. -/
def Sql.InRange : (sql : Sql) → sql.Row → Prop
  | .update, row => 1 ≤ row.val
  | .init, _ | .selectOne, _ => True

/-- A connection that fails, or a statement whose connection does. -/
def network : Prog.Weather Pg where
  fault
    | .connect _, .error _ => True
    | .exec _, .error (.connection _) => True
    | _, _ => False
  usual
    | .connect _, .ok _ => True
    | .exec sql, .ok row => sql.InRange row
    | .sleep _, _ => True
    | _, _ => False

/-! ### One call -/

def Numbered (result : Except CounterStoreError UInt64) : Prop :=
  ∃ count : VisitorCount, result = .ok count.get

/-- Each fault costs one attempt at most, and the last attempt needs none. -/
theorem PostgresCounterStore.loop_endures (store : PostgresCounterStore) (retries delay : Nat) :
    (store.loop retries delay).Endures network Numbered (retries + 1) := by
  have counted : ∀ {n : Nat} {row : Bigint}, Sql.update.InRange row →
      (Prog.ret (u64TryFrom row) : Prog Pg _).Endures network Numbered n := by
    intro n row hRow _
    obtain ⟨count, hCount, -⟩ := u64TryFrom_of_pos hRow
    exact ⟨count, hCount⟩
  induction retries generalizing delay with
  | zero =>
    rw [loop]
    intro reply
    cases reply with
    | error error => exact ⟨fun _ h => absurd h (by omega), False.elim⟩
    | ok _ =>
      refine ⟨False.elim, fun _ reply => ?_⟩
      cases reply with
      | error error => exact ⟨fun _ h => absurd h (by omega), False.elim⟩
      | ok row => exact ⟨False.elim, fun hRow => counted hRow⟩
  | succ retries ih =>
    have wait : ∀ n ≤ retries + 1, (sleep delay >>= fun _ =>
        store.loop retries (delay * 2)).Endures network Numbered n :=
      fun n hn _ => ⟨False.elim, fun _ => (ih (delay * 2)).mono hn⟩
    have again : (store.recover >>= fun _ => sleep delay >>= fun _ =>
        store.loop retries (delay * 2)).Endures network Numbered (retries + 1) := by
      intro reply
      cases reply with
      | error _ => exact ⟨fun _ => wait _ (by omega), False.elim⟩
      | ok _ =>
        exact ⟨False.elim, fun _ reply => ⟨fun _ => wait _ (by omega), fun _ => wait _ (by omega)⟩⟩
    rw [loop]
    intro reply
    cases reply with
    | error error => exact ⟨fun _ => again, False.elim⟩
    | ok _ =>
      refine ⟨False.elim, fun _ reply => ?_⟩
      cases reply with
      | error error => exact ⟨fun _ => again, False.elim⟩
      | ok row => exact ⟨False.elim, fun hRow => counted hRow⟩

theorem PostgresCounterStore.health_endures (store : PostgresCounterStore) :
    store.health.Endures network (· = .ok ()) 1 := by
  intro reply
  cases reply with
  | error error => exact ⟨fun _ h => absurd h (by omega), False.elim⟩
  | ok _ =>
    refine ⟨False.elim, fun _ reply => ?_⟩
    cases reply with
    | error error => exact ⟨fun _ h => absurd h (by omega), False.elim⟩
    | ok row => exact ⟨False.elim, fun _ _ => rfl⟩

theorem PostgresCounterStore.connect_endures (config : PostgresCounterStoreConfig) :
    (PostgresCounterStore.connect config).Endures network
      (fun result => ∃ store, result = .ok store) 1 := by
  intro reply
  cases reply with
  | error error => exact ⟨fun _ h => absurd h (by omega), False.elim⟩
  | ok _ =>
    refine ⟨False.elim, fun _ reply => ?_⟩
    cases reply with
    | error error => exact ⟨fun _ h => absurd h (by omega), False.elim⟩
    | ok row => exact ⟨False.elim, fun _ _ => ⟨_, rfl⟩⟩

/-- Work that makes one attempt: a start-up or a health check. -/
def Work.isProbe : Work → Bool
  | .startUp _ => true
  | .exchange _ request => request.isHealthView

/-- A started process, or a response that is no server error. -/
def Outcome.Served : Outcome → Prop
  | .connected result => ∃ store, result = .ok store
  | .response page => page.status < 500

theorem Work.program_endures (work : Work) {n : Nat} (view : work.isPageView = true → n ≤ 4)
    (probe : work.isProbe = true → n ≤ 1) : work.program.Endures network Outcome.Served n := by
  cases work with
  | startUp config =>
    exact (PostgresCounterStore.connect_endures config).mono (probe rfl) |>.map fun _ h => h
  | exchange process request =>
    have serves : (process.router.handle request).Endures network (·.status < 500) n := by
      have asks := handle_asks process.router request
      generalize process.router.handle request = p at asks
      cases asks with
      | count mode views shape status =>
        have hMode : process.mode = .counter := mode
        refine ((process.store.loop_endures 3 250).mono (view ?_)).map ?_
        · simp [Work.isPageView, hMode, views]
        · rintro _ ⟨count, rfl⟩
          rw [status, Router.counterResponse, HelloWorldService.counted_ok]
          exact Nat.le_of_ble_eq_true rfl
      | health views shape status =>
        refine (process.store.health_endures.mono (probe views)).map ?_
        rintro _ rfl
        rw [status]
        exact Nat.le_of_ble_eq_true rfl
      | nothing response status => exact fun _ => status
    exact serves.map fun _ h => h

/-! ### The device -/

def Label.fault : Label → Option Nat
  | .refused t | .lost t _ _ | .aborted t _ => some t
  | _ => none

section

variable {ι α : Type} {program : ι → Prog Pg α} {s s' : State Pg Server α}
  {event : Event ι Label α} {events : List (Event ι Label α)} {v : Bigint}

/-- Row 1 is there and not negative, and the statements on the wire have worked. -/
structure Healthy (server : Server) : Prop where
  row : ∃ w, server.db.row1 = some w ∧ 0 ≤ w.val
  wire : ∀ t sql result, server.wire t = some ⟨sql, result⟩ →
    ∃ row, result = .ok row ∧ sql.InRange row

/-- Row 1 is below the largest value of its type. -/
def BelowMax (server : Server) : Prop := ∀ w, server.db.row1 = some w → w.val < 2 ^ 63 - 1

theorem exec_inRange {db : Database} {w : Bigint} (hRow : db.row1 = some w) (hPos : 0 ≤ w.val)
    (hBound : w.val < 2 ^ 63 - 1) (sql : Sql) :
    ∃ row, (db.exec sql).1 = .ok row ∧ sql.InRange row := by
  cases sql with
  | init => exact ⟨(), rfl, trivial⟩
  | update =>
    obtain ⟨next, after, hUpdate, hVal, -⟩ := Database.update_ok hRow (by omega)
    refine ⟨next, congrArg Prod.fst hUpdate, ?_⟩
    show 1 ≤ next.val
    omega
  | selectOne => exact ⟨(), rfl, trivial⟩

/-- Row 1 only grows, so that it was below the maximum before, too. -/
theorem BelowMax.before (below : BelowMax s'.shared) (step : Step program device s event s') :
    BelowMax s.shared := by
  intro w hRow
  obtain ⟨w', hRow', hLe⟩ := run_row1_le (Run.nil.snoc step) hRow
  have hBound := below w' hRow'
  omega

theorem Healthy.step (healthy : Healthy s.shared) (below : BelowMax s.shared)
    (step : Step program device s event s') : Healthy s'.shared := by
  obtain ⟨⟨w, hRow, hPos⟩, wire⟩ := healthy
  refine ⟨?_, ?_⟩
  · obtain ⟨w', hRow', hLe⟩ := run_row1_le (Run.nil.snoc step) hRow
    exact ⟨w', hRow', hPos.trans hLe⟩
  · cases step with
    | start job fresh => exact wire
    | serve waits served =>
      cases served with
      | @commit sql _ free =>
        intro u sql' result hWire
        have hWire' := (Server.setWire_wire ..).symm.trans hWire
        split at hWire'
        · cases hWire'
          exact exec_inRange hRow hPos (below w hRow) sql
        · exact wire u sql' result hWire'
    | reply waits replied =>
      have emptied : ∀ t : Nat, ∀ u sql result, (s.shared.setWire t none).wire u =
          some ⟨sql, result⟩ → ∃ row, result = .ok row ∧ sql.InRange row := by
        intro t u sql result hWire
        rw [Server.setWire_wire] at hWire
        split at hWire
        · cases hWire
        · exact wire u sql result hWire
      cases replied with
      | delivered arrived => exact emptied _
      | lost text arrived => exact emptied _
      | _ => exact wire
    | drift drifts => cases drifts; exact wire
    | finish returns => exact wire
    | drop waits released => exact released.elim

theorem Healthy.counted (healthy : Healthy s.shared) :
    device.Counted network Label.fault s.shared where
  serve := by
    intro t op label shared served
    cases served
    rfl
  drift := by
    intro label shared drifts
    cases drifts
    rfl
  reply := by
    intro t op reply label shared replied
    cases replied with
    | connected => exact .inr ⟨rfl, trivial⟩
    | refused text => exact .inl ⟨rfl, trivial⟩
    | delivered arrived =>
      obtain ⟨row, rfl, hRow⟩ := healthy.wire _ _ _ arrived
      exact .inr ⟨rfl, hRow⟩
    | lost text arrived => exact .inl ⟨rfl, trivial⟩
    | aborted text free => exact .inl ⟨rfl, trivial⟩
    | slept => exact .inr ⟨rfl, trivial⟩

theorem run_enduring (good : α → Prop) {db : Database} (hRow : db.row1 = some v)
    (hPos : 0 ≤ v.val) (run : Run program device (State.idle (Server.quiet db)) events s)
    (below : BelowMax s.shared) :
    Healthy s.shared ∧ Enduring program network good Label.fault events s := by
  induction run with
  | nil => exact ⟨⟨⟨v, hRow, hPos⟩, fun _ _ _ h => nomatch h⟩, .idle _⟩
  | snoc _ step ih =>
    have hBefore := below.before step
    obtain ⟨healthy, enduring⟩ := ih hBefore
    exact ⟨healthy.step hBefore step, enduring.step healthy.counted step⟩

end

/-- While row 1 stays below the maximum, a page view answers with an error only after at least four
faults of its own connections, and a health check or a start-up only after at least one; no other
request ever does. -/
theorem three_faults_tolerated {db : Database} {v : Bigint} (hRow : db.row1 = some v)
    (hPos : 0 ≤ v.val) {events : List (Event Work Label Outcome)} {s : State Pg Server Outcome}
    (run : Run Work.program device (State.idle (Server.quiet db)) events s)
    (below : BelowMax s.shared) {t : Nat} {outcome : Outcome}
    (hFinish : .finish t outcome ∈ events) (hFailed : ¬outcome.Served) :
    ∃ work, .start t work ∈ events ∧
      (work.isPageView = true ∧ 4 ≤ faults Label.fault events t ∨
        work.isProbe = true ∧ 1 ≤ faults Label.fault events t) := by
  obtain ⟨-, enduring⟩ := run_enduring Outcome.Served hRow hPos run below
  obtain ⟨work, hStart, hGood⟩ := enduring.finished t outcome (run.finished hFinish)
  refine ⟨work, hStart, ?_⟩
  by_contra hFew
  refine hFailed (hGood (faults Label.fault events t + 1) (work.program_endures ?_ ?_) (by omega))
  · intro hView
    by_contra hMany
    exact hFew (.inl ⟨hView, by omega⟩)
  · intro hProbe
    by_contra hMany
    exact hFew (.inr ⟨hProbe, by omega⟩)

def unavailablePage : Outcome :=
  .response (Router.counterResponse (localProcess .counter).serverLabel
    (.error (.unavailable "connection refused")))

/-- Row 1 close below the largest value of its type. -/
def highValue : Bigint := ⟨2 ^ 63 - 10, by decide, by decide⟩

def highDb : Database := ⟨some fun id => if id = 1 then some highValue else none⟩

/-- A page view that never gets a connection. -/
def refusedPage : List (Event Work Label Outcome) :=
  [.start 0 (.exchange (localProcess .counter) ⟨.get, "/"⟩),
    .device (.refused 0), .device (.refused 0), .device (.slept 0),
    .device (.refused 0), .device (.refused 0), .device (.slept 0),
    .device (.refused 0), .device (.refused 0), .device (.slept 0),
    .device (.refused 0), .finish 0 unavailablePage]

theorem refusedPage_run :
    ∃ s, Run Work.program device (State.idle (Server.quiet highDb)) refusedPage s ∧
      s.shared.db = highDb :=
  ⟨_, .head (.start_eq (by rfl) Work.program_page) <|
    .head (.reply (by rfl) (.refused "connection refused")) <|
    .head (.reply (by rfl) (.refused "connection refused")) <|
    .head (.reply (by rfl) .slept) <|
    .head (.reply (by rfl) (.refused "connection refused")) <|
    .head (.reply (by rfl) (.refused "connection refused")) <|
    .head (.reply (by rfl) .slept) <|
    .head (.reply (by rfl) (.refused "connection refused")) <|
    .head (.reply (by rfl) (.refused "connection refused")) <|
    .head (.reply (by rfl) .slept) <|
    .head (.reply (by rfl) (.refused "connection refused")) <|
    .head (.finish (by rfl)) .nil, rfl⟩

theorem refusedPage_faults : ∃ work, .start 0 work ∈ refusedPage ∧
    (work.isPageView = true ∧ 4 ≤ faults Label.fault refusedPage 0 ∨
      work.isProbe = true ∧ 1 ≤ faults Label.fault refusedPage 0) := by
  obtain ⟨s, run, hDb⟩ := refusedPage_run
  have below : BelowMax s.shared := by
    intro w hw
    rw [hDb] at hw
    obtain rfl : highValue = w := Option.some.inj hw
    decide
  refine three_faults_tolerated (v := highValue) (by rfl) (by decide) run below
    (show .finish 0 unavailablePage ∈ refusedPage by simp [refusedPage]) ?_
  show ¬(503 < 500)
  decide

end HelloCounter.Postgres
