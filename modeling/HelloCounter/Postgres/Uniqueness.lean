import HelloCounter.Http.Router
import HelloCounter.Postgres.Calls

/-! Visitor numbers across any number of servers on one primary: no two pages show the same number,
and a page requested after another was served shows a larger one. -/

namespace HelloCounter.Postgres

open Effect Schedule Http

/-- What a server process does with the database in counter mode. -/
inductive Job where
  | connect (config : PostgresCounterStoreConfig)
  | getRoot (serverLabel : HeaderValue) (store : PostgresCounterStore)

inductive Outcome where
  | connected (result : Except PostgresAdapterError PostgresCounterStore)
  | response (response : Response)

def counterRouter (serverLabel : HeaderValue) (store : PostgresCounterStore) : Router Pg :=
  ⟨{ service := { mode := .counter, counterStore := store.port }, serverLabel }⟩

def Job.program : Job → Prog Pg Outcome
  | .connect config => do return .connected (← PostgresCounterStore.connect config)
  | .getRoot serverLabel store => do
    return .response (← (counterRouter serverLabel store).handle ⟨.get, "/"⟩)

theorem Job.program_getRoot (label : HeaderValue) (store : PostgresCounterStore) :
    (Job.getRoot label store).program = store.loop 3 250 >>= fun result =>
      .ret (.response (Router.counterResponse label result)) := by
  show ((counterRouter label store).handle ⟨.get, "/"⟩ >>= fun response =>
    Prog.ret (Outcome.response response)) = _
  rw [Router.handle_root_counter _ rfl, Prog.bind_assoc]
  rfl

def pageBodies (events : List (Event Job Label Outcome)) : List Body :=
  events.filterMap fun
    | .finish _ (.response response) => if response.status = 200 then some response.body else none
    | _ => none

/-! ### The number of a page -/

open Classical in
/-- The count that a body greets with, or zero. -/
noncomputable def bodyNumber (body : Body) : Int :=
  if h : ∃ count : VisitorCount, body = .text (Greeting.numbered count).message then
    h.choose.get.toNat
  else 0

theorem bodyNumber_message (count : VisitorCount) :
    bodyNumber (.text (Greeting.numbered count).message) = count.get.toNat := by
  have h : ∃ count' : VisitorCount, Body.text (Greeting.numbered count).message =
      .text (Greeting.numbered count').message := ⟨count, rfl⟩
  have hCount : h.choose = count :=
    (Greeting.numbered_message_inj (Body.text.inj h.choose_spec)).symm
  rw [bodyNumber, dif_pos h, hCount]

theorem message_of_bodyNumber {body : Body} (h : 1 ≤ bodyNumber body) :
    ∃ count : VisitorCount, body = .text (Greeting.numbered count).message ∧
      bodyNumber body = count.get.toNat := by
  by_cases hBody : ∃ count : VisitorCount, body = .text (Greeting.numbered count).message
  · obtain ⟨count, rfl⟩ := hBody
    exact ⟨count, rfl, bodyNumber_message count⟩
  · rw [bodyNumber, dif_neg hBody] at h
    omega

noncomputable def Outcome.number : Outcome → Option Int
  | .response page => if page.status = 200 then some (bodyNumber page.body) else none
  | .connected _ => none

/-- The number of a page for a row: none unless the row is positive. -/
def pageValue (row : Bigint) : Option Int := if 1 ≤ row.val then some row.val else none

theorem pageValue_eq (row : Bigint) : pageValue row = none ∨ pageValue row = some row.val := by
  unfold pageValue
  split
  · exact .inr rfl
  · exact .inl rfl

theorem u64TryFrom_of_pos {row : Bigint} (h : 1 ≤ row.val) :
    ∃ count : VisitorCount, u64TryFrom row = .ok count.get ∧ (count.get.toNat : Int) = row.val := by
  have hUpper := row.upper
  have hNat : (UInt64.ofNat row.val.toNat).toNat = row.val.toNat :=
    UInt64.toNat_ofNat_of_lt' (by show row.val.toNat < 2 ^ 64; omega)
  refine ⟨⟨UInt64.ofNat row.val.toNat, ?_⟩, if_pos (by omega), ?_⟩
  · intro hZero
    rw [hZero] at hNat
    simp at hNat
    omega
  · show ((UInt64.ofNat row.val.toNat).toNat : Int) = row.val
    omega

theorem number_counterResponse (label : HeaderValue) (row : Bigint) :
    Outcome.number (.response (Router.counterResponse label (u64TryFrom row))) = pageValue row := by
  by_cases h : 1 ≤ row.val
  · obtain ⟨count, hCount, hVal⟩ := u64TryFrom_of_pos h
    rw [pageValue, if_pos h, hCount, ← hVal, ← bodyNumber_message]
    simp [Outcome.number, Router.counterResponse, HelloWorldService.counted_ok, Except.map,
      textResponse, intoResponse, HelloWorldService.numbered]
  · rw [pageValue, if_neg h]
    have hStatus : (Router.counterResponse label (u64TryFrom row)).status ≠ 200 := by
      intro hStatus
      obtain ⟨count, hCount, -⟩ := Router.counterResponse_ok hStatus
      have hNe := count.ne_zero
      unfold u64TryFrom at hCount
      split at hCount
      · have hZero : row.val = 0 := by omega
        rw [hZero] at hCount
        exact hNe (Except.ok.inj hCount).symm
      · cases hCount
    simp [Outcome.number, hStatus]

theorem counterResponse_error (label : HeaderValue) (error : CounterStoreError) :
    Outcome.number (.response (Router.counterResponse label (.error error))) = none := rfl

/-- Every job counts: a page shows the row that its `UPDATE` returned. -/
theorem Job.program_counts (job : Job) : Counts Outcome.number pageValue job.program := by
  cases job with
  | connect config =>
    refine ⟨fun row => .response (Router.counterResponse ⟨"", rfl⟩ (u64TryFrom row)),
      number_counterResponse ⟨"", rfl⟩, ?_⟩
    intro reply
    cases reply with
    | error error => rfl
    | ok _ =>
      intro reply
      cases reply <;> rfl
  | getRoot label store =>
    refine ⟨fun row => .response (Router.counterResponse label (u64TryFrom row)),
      number_counterResponse label, ?_⟩
    have hOther : ∀ result : Except CounterStoreError UInt64, (∃ error, result = .error error) →
        Outcome.number (.response (Router.counterResponse label result)) = none := by
      rintro _ ⟨error, rfl⟩
      exact counterResponse_error label error
    have follows := (store.loop_follows 3 250).map
      (fun result => Outcome.response (Router.counterResponse label result))
      (fun outcome => outcome.number = none) hOther
    simp only [rowValue_map] at follows
    rw [Job.program_getRoot]
    exact follows

/-! ### The pages of a run -/

theorem pageBodies_number (events : List (Event Job Label Outcome)) :
    (pageBodies events).map bodyNumber =
      Tickets.shownNumbers (events.map (ticketEvent Outcome.number)) := by
  induction events with
  | nil => rfl
  | cons event events ih =>
    rcases event with _ | _ | ⟨t, result | page⟩ | _ <;> try exact ih
    by_cases hStatus : page.status = 200 <;>
      simpa [pageBodies, Tickets.shownNumbers, ticketEvent, Outcome.number, hStatus] using ih

theorem page_number {db : Database} {events : List (Event Job Label Outcome)}
    {s : State Pg Server Outcome}
    (run : Run Job.program device (State.idle (Server.quiet db)) events s) {t : Nat}
    {page : Response} (h : .finish t (.response page) ∈ events) (hStatus : page.status = 200) :
    ∃ count : VisitorCount, page.body = .text (Greeting.numbered count).message ∧
      ticketEvent Outcome.number (.finish t (.response page) : Event Job Label Outcome) =
        .shown t (count.get.toNat : Int) := by
  have hNumber : Outcome.number (.response page) = some (bodyNumber page.body) := if_pos hStatus
  rcases run_finish Job.program_counts run h with hNone | ⟨row, hRow⟩
  · rw [hNumber] at hNone
    cases hNone
  · rw [hNumber, pageValue] at hRow
    split at hRow
    · next hPos =>
      have hOne : 1 ≤ bodyNumber page.body := Option.some.inj hRow ▸ hPos
      obtain ⟨count, hBody, hCount⟩ := message_of_bodyNumber hOne
      exact ⟨count, hBody, by simp only [ticketEvent, hNumber, hCount]⟩
    · cases hRow

/-- Across any number of servers on one primary, row 1 never decreases once it exists, no two pages
show the same body, and a request that arrives after a page was produced gets a larger number. -/
theorem visitor_numbers_unique {db : Database} {events : List (Event Job Label Outcome)}
    {s : State Pg Server Outcome}
    (run : Run Job.program device (State.idle (Server.quiet db)) events s) :
    (∀ events' s', Run Job.program device s events' s' → ∀ v, row1 s = some v →
      ∃ w, row1 s' = some w ∧ v.val ≤ w.val) ∧
    (pageBodies events).Nodup ∧
    ∀ before after t u job page page', events = before ++ .start u job :: after →
      .finish t (.response page) ∈ before → page.status = 200 →
      .finish u (.response page') ∈ after → page'.status = 200 →
      ∃ m n : VisitorCount, page.body = .text (Greeting.numbered m).message ∧
        page'.body = .text (Greeting.numbered n).message ∧ m.get < n.get := by
  have inv := (run_tickets Job.program_counts pageValue_eq run).inv fun _ => rfl
  refine ⟨fun events' s' run' v h => run_row1_le run' h, ?_, ?_⟩
  · have hNodup := inv.nodup
    rw [← pageBodies_number] at hNodup
    exact hNodup.of_map _
  · intro before after t u job page page' hEvents hBefore hPage hAfter hPage'
    subst hEvents
    obtain ⟨m, hBody, hShown⟩ := page_number run (List.mem_append_left _ hBefore) hPage
    obtain ⟨n, hBody', hShown'⟩ := page_number run
      (List.mem_append_right _ (List.mem_cons_of_mem _ hAfter)) hPage'
    have hLess : (m.get.toNat : Int) < n.get.toNat := by
      refine inv.shownOrder u _ (before.map (ticketEvent Outcome.number))
        (after.map (ticketEvent Outcome.number)) ?_ ?_ t _ ?_
      · rw [List.map_append, List.map_cons]
        rfl
      · exact hShown' ▸ List.mem_map_of_mem hAfter
      · exact hShown ▸ List.mem_map_of_mem hBefore
    exact ⟨m, n, hBody, hBody', UInt64.lt_iff_toNat_lt.mpr (by omega)⟩

/-- The first request finds no table and creates it; the second arrives after the first page. -/
def twoVisits : List (Event Job Label Outcome) :=
  let page (count : UInt64) : Outcome := .response (Router.counterResponse ⟨"server_1", rfl⟩
    (.ok count))
  [.start 0 (.getRoot ⟨"server_1", rfl⟩ ⟨"host=haproxy"⟩), .device (.connected 0),
    .device (.committed 0 .update (.error .undefinedTable)),
    .device (.delivered 0 .update (.error .undefinedTable)), .device (.connected 0),
    .device (.committed 0 .init (.ok ())), .device (.delivered 0 .init (.ok ())),
    .device (.slept 0), .device (.connected 0),
    .device (.committed 0 .update (.ok Bigint.one)),
    .device (.delivered 0 .update (.ok Bigint.one)), .finish 0 (page 1),
    .start 1 (.getRoot ⟨"server_1", rfl⟩ ⟨"host=haproxy"⟩), .device (.connected 1),
    .device (.committed 1 .update (.ok Bigint.two)),
    .device (.delivered 1 .update (.ok Bigint.two)), .finish 1 (page 2)]

theorem twoVisits_run :
    ∃ s, Run Job.program device (State.idle (Server.quiet ⟨none⟩)) twoVisits s :=
  ⟨_, .head (.start_eq (by rfl) (Job.program_getRoot ..)) <|
    .head (.reply (by rfl) .connected) <|
    .head (.serve (by rfl) (.commit_eq (by rfl) (by rfl))) <|
    .head (.reply (by rfl) (.delivered (by rfl))) <|
    .head (.reply (by rfl) .connected) <|
    .head (.serve (by rfl) (.commit_eq (by rfl) (by rfl))) <|
    .head (.reply (by rfl) (.delivered (by rfl))) <|
    .head (.reply (by rfl) .slept) <|
    .head (.reply (by rfl) .connected) <|
    .head (.serve (by rfl) (.commit_eq (by rfl) (by rfl))) <|
    .head (.reply (by rfl) (.delivered (by rfl))) <|
    .head (.finish (by rfl)) <|
    .head (.start_eq (by rfl) (Job.program_getRoot ..)) <|
    .head (.reply (by rfl) .connected) <|
    .head (.serve (by rfl) (.commit_eq (by rfl) (by rfl))) <|
    .head (.reply (by rfl) (.delivered (by rfl))) <|
    .head (.finish (by rfl)) .nil⟩

theorem twoVisits_unique : (pageBodies twoVisits).Nodup ∧ pageBodies twoVisits =
    [.text "Hello visitor. You are the 1'th visitor to this page",
      .text "Hello visitor. You are the 2'th visitor to this page"] := by
  obtain ⟨s, run⟩ := twoVisits_run
  exact ⟨(visitor_numbers_unique run).2.1, by decide⟩

end HelloCounter.Postgres
