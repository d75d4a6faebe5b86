import HelloCounter.Http.Requests
import HelloCounter.Library.Linearize
import HelloCounter.Memory.Concurrency

/-! Concurrent requests to one router over the memory store.  A client that disconnects drops its
request, which may happen while the request waits for the lock.  The responses are the ones of a
sequential server that gets the requests in the order in which they took the lock. -/

namespace HelloCounter.Memory

open Effect Linearize

def Op.role : Op → Role
  | .lock => .acquire
  | .increment | .read => .inside
  | .unlock => .release

/-- The mutex, with the replies of an uncontended one to the task that holds it. -/
def counterLock : Lock Mem Mutex UInt64 where
  role := Op.role
  answer := answer
  holder := Mutex.holder
  content := Mutex.counter

theorem counterLock_guards : counterLock.Guards device where
  serve := fun _ _ _ _ _ h => h
  drift := fun _ _ _ h => h
  reply := by
    intro t op reply label m m' replied
    cases replied with
    | acquired => exact ⟨rfl, rfl, rfl⟩
    | incremented => exact ⟨rfl, rfl⟩
    | loaded => exact ⟨rfl, rfl⟩
    | released => exact ⟨rfl, rfl⟩
  release := by
    rintro t op m m' ⟨rfl, rfl⟩
    exact ⟨rfl, rfl⟩

theorem nextVisitorCount_critical :
    Critical counterLock MemoryCounterStore.nextVisitorCount :=
  .enter rfl fun _ => .work rfl fun _ => .work rfl fun _ => .leave rfl fun _ => ⟨_, rfl⟩

end HelloCounter.Memory

namespace HelloCounter.Http

open Effect Schedule Linearize Memory

variable {mode : GreetingMode} {app : Router Mem}

/-- Every request works in one critical section at most. -/
theorem handle_critical (hService : app.state.service = memoryService mode) (request : Request) :
    Critical counterLock (app.handle request) := by
  have asks := handle_asks app request
  generalize app.handle request = p at asks
  cases asks with
  | count hMode views shape status =>
    rw [hService]
    exact nextVisitorCount_critical.map _
  | health views shape status =>
    rw [hService]
    exact .skip _
  | nothing response status => exact .skip response

abbrev Exchange := Event Request Label Response

/-- Whatever the interleaving and whichever clients disconnect, the requests that took effect have
an order in which one request after the other gives the same responses and the same counter, and
which keeps the order of real time.  In counter mode each page carries its number among the page
views in that order. -/
theorem concurrent_requests_linearize {label : String}
    (built : buildRouter (memoryService mode) label = some app) {events : List Exchange}
    {s : State Mem Mutex Response}
    (run : Run app.handle device (State.idle .fresh) events s) :
    ∃ order, Linearizes counterLock app.handle events 0 order ∧
      (s.shared.holder = none →
        s.shared.counter = counterAfter app (order.map Prod.snd)) ∧
      (mode = .counter → pageViews (order.map Prod.snd) < 2 ^ 64 → ∀ k t response,
        order[k]? = some (t, ⟨.get, "/"⟩) → .finish t response ∈ events →
        ∃ count : VisitorCount,
          count.get.toNat = pageViews ((order.map Prod.snd).take (k + 1)) ∧
          response.body = .text (Greeting.numbered count).message) := by
  have hService := service_of_buildRouter built
  obtain ⟨order, linearizes, hState⟩ :=
    run_linearizes counterLock_guards (handle_critical hService) rfl run
  refine ⟨order, linearizes, hState, ?_⟩
  rintro rfl bound k t response hTask hFinish
  have hGet : (order.map Prod.snd)[k]? = some ⟨.get, "/"⟩ := by
    rw [List.getElem?_map, hTask]
    rfl
  obtain ⟨count, hCount, hBody⟩ := root_get_body hService hGet
    (((List.take_sublist (k + 1) _).countP_le).trans_lt bound)
  have hResponse : (responses app (order.map Prod.snd))[k]? = some response :=
    value_at linearizes.nodup hTask (linearizes.values t response hFinish)
  rw [hResponse] at hBody
  exact ⟨count, hCount, Option.some.inj hBody⟩

/-! ### A page, a health check, and a client that disconnects -/

def page (n : UInt64) : Response :=
  Router.counterResponse (localRouter .counter).state.serverLabel (.ok n)

/-- The second page view disconnects while it waits for the first one. -/
def disconnected : List Exchange :=
  [.start 0 ⟨.get, "/"⟩, .start 1 ⟨.get, "/"⟩, .start 2 ⟨.post, "/"⟩, .start 3 ⟨.get, "/"⟩,
    .device (.acquired 0), .drop 1, .device (.incremented 0), .finish 2 methodNotAllowed,
    .device (.loaded 0), .device (.released 0), .device (.acquired 3), .finish 0 (page 1),
    .device (.incremented 3), .device (.loaded 3), .device (.released 3), .finish 3 (page 2)]

/-- The steps of a page view. -/
def viewing : Prog Mem Response :=
  .call .lock fun _ => .call .increment fun _ => .call .read fun n => .call .unlock fun _ =>
    .ret (page n)

theorem handle_viewing : (localRouter .counter).handle ⟨.get, "/"⟩ = viewing := by
  rw [Router.handle_root_counter _ rfl]
  rfl

theorem disconnected_run : ∃ s,
    Run (localRouter .counter).handle device (State.idle .fresh) disconnected s ∧
      s.shared.holder = none :=
  ⟨_, .head (.start_eq (by rfl) handle_viewing) <| .head (.start_eq (by rfl) handle_viewing) <|
    .head (.start_eq (by rfl) (by rfl)) <| .head (.start_eq (by rfl) handle_viewing) <|
    .head (.reply (by rfl) .acquired) <| .head (.drop (by rfl) ⟨rfl, rfl⟩) <|
    .head (.reply (by rfl) .incremented) <| .head (.finish (by rfl)) <|
    .head (.reply (by rfl) .loaded) <| .head (.reply (by rfl) .released) <|
    .head (.reply (by rfl) .acquired) <| .head (.finish (by rfl)) <|
    .head (.reply (by rfl) .incremented) <| .head (.reply (by rfl) .loaded) <|
    .head (.reply (by rfl) .released) <| .head (.finish (by rfl)) .nil, rfl⟩

theorem disconnected_linearizes : ∃ order,
    Linearizes counterLock (localRouter .counter).handle disconnected 0 order ∧
      1 ∉ order.map Prod.fst := by
  obtain ⟨s, run, -⟩ := disconnected_run
  obtain ⟨order, linearizes, -, -⟩ :=
    concurrent_requests_linearize (buildRouter_local .counter) run
  exact ⟨order, linearizes, linearizes.dropped 1 (by simp [disconnected])⟩

end HelloCounter.Http
