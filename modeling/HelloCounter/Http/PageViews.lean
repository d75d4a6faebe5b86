import HelloCounter.Http.Router
import HelloCounter.Interchange

/-! The requests that the counter counts.  `get` routes run their handler for `HEAD` as for `GET`,
so a `HEAD` of the page adds one as well, without showing the count. -/

namespace HelloCounter.Http

open Effect Prog

/-- The requests that reach `get_hello`. -/
def Request.isPageView (request : Request) : Bool :=
  (request.method == .get || request.method == .head) && request.path == "/"

def pageViews (requests : List Request) : Nat := requests.countP Request.isPageView

def memoryService (mode : GreetingMode) : HelloWorldService Memory.Mem :=
  ⟨mode, Memory.MemoryCounterStore.port⟩

/-- The counter of a fresh store after the requests. -/
def counterAfter (app : Router Memory.Mem) (requests : List Request) : UInt64 :=
  stateAfter Memory.answer app.handle requests 0

/-- The responses of a router over a fresh store. -/
def responses (app : Router Memory.Mem) (requests : List Request) : List Response :=
  (results Memory.answer app.handle requests 0).map Prod.fst

variable {app : Router Memory.Mem}

theorem service_of_buildRouter {E : Interface} {service : HelloWorldService E} {label : String}
    {app : Router E} (built : buildRouter service label = some app) :
    app.state.service = service := by
  obtain ⟨serverLabel, -, rfl⟩ := Option.map_eq_some_iff.mp built
  rfl

theorem get_state {E : Interface} {σ : Type} (answer : (op : E.Op) → σ → E.Reply op × σ)
    (handler : Prog E Response) (method : Method) (s : σ) :
    ((get handler method).run answer s).2 =
      if method = .get ∨ method = .head then (handler.run answer s).2 else s := by
  cases method <;> simp [get]

/-- A request that reaches no handler of the page leaves the counter as it was. -/
theorem handle_state_other {mode : GreetingMode} (hService : app.state.service = memoryService mode)
    {request : Request} (hOther : request.isPageView = false) (n : UInt64) :
    ((app.handle request).run Memory.answer n).2 = n := by
  unfold Router.handle
  by_cases hRoot : request.path = "/"
  · rw [if_pos hRoot, get_state, if_neg]
    simpa [Request.isPageView, hRoot] using hOther
  by_cases hHealth : request.path = "/health"
  · rw [if_neg hRoot, if_pos hHealth, get_state]
    split
    · simp only [getHealth, HelloWorldService.health, hService]
      rfl
    · rfl
  · rw [if_neg hRoot, if_neg hHealth]
    rfl

theorem handle_state_plain (hService : app.state.service = memoryService .plain)
    (request : Request) (n : UInt64) :
    ((app.handle request).run Memory.answer n).2 = n := by
  cases hView : request.isPageView with
  | false => exact handle_state_other hService hView n
  | true =>
    have hRoot : request.path = "/" := by simpa using (Bool.and_eq_true_iff.mp hView).2
    rw [Router.handle, if_pos hRoot, get_state]
    split
    · simp only [getHello, HelloWorldService.hello, hService]
      rfl
    · rfl

theorem handle_state_view (hService : app.state.service = memoryService .counter)
    {request : Request} (hView : request.isPageView = true) (n : UInt64) :
    ((app.handle request).run Memory.answer n).2 = n + 1 := by
  obtain ⟨hMethod, hRoot⟩ := Bool.and_eq_true_iff.mp hView
  rw [Router.handle, if_pos (by simpa using hRoot), get_state, if_pos (by simpa using hMethod)]
  simp only [getHello, HelloWorldService.hello, hService]
  rfl

theorem pageViews_append_single (requests : List Request) (request : Request) :
    pageViews (requests ++ [request]) =
      pageViews requests + if request.isPageView then 1 else 0 := by
  rw [pageViews, List.countP_append, List.countP_singleton]
  rfl

theorem counterAfter_append_single (requests : List Request) (request : Request) :
    counterAfter app (requests ++ [request]) =
      ((app.handle request).run Memory.answer (counterAfter app requests)).2 := by
  rw [counterAfter, stateAfter_append]
  rfl

theorem counterAfter_plain (hService : app.state.service = memoryService .plain)
    (requests : List Request) : counterAfter app requests = 0 := by
  induction requests using List.reverseRecOn with
  | nil => rfl
  | append_singleton requests request ih =>
    rw [counterAfter_append_single, ih]
    exact handle_state_plain hService request 0

/-- The counter is the number of page views, modulo the width of a `u64`. -/
theorem counterAfter_counter (hService : app.state.service = memoryService .counter)
    (requests : List Request) :
    counterAfter app requests = UInt64.ofNat (pageViews requests) := by
  induction requests using List.reverseRecOn with
  | nil => rfl
  | append_singleton requests request ih =>
    rw [counterAfter_append_single, pageViews_append_single, ih]
    cases hView : request.isPageView with
    | false => exact handle_state_other hService hView _
    | true =>
      rw [handle_state_view hService hView, if_pos rfl, UInt64.ofNat_add]
      rfl

theorem handle_root_get (hService : app.state.service = memoryService .counter) (n : UInt64) :
    ((app.handle ⟨.get, "/"⟩).run Memory.answer n).1 =
      Router.counterResponse app.state.serverLabel (.ok (n + 1)) := by
  rw [Router.handle_root_counter app (by rw [hService]; rfl), run_bind, hService]
  rfl

/-- A `GET /` after fewer than `2 ^ 64 - 1` page views greets with the number of page views so
far. -/
theorem root_get_body (hService : app.state.service = memoryService .counter)
    {requests : List Request} {k : Nat} (hGet : requests[k]? = some ⟨.get, "/"⟩)
    (bound : pageViews (requests.take (k + 1)) < 2 ^ 64) :
    ∃ count : VisitorCount, count.get.toNat = pageViews (requests.take (k + 1)) ∧
      (responses app requests)[k]?.map Response.body =
        some (.text (Greeting.numbered count).message) := by
  have hTake : requests.take (k + 1) = requests.take k ++ [⟨.get, "/"⟩] := by
    rw [List.take_add_one, hGet]
    rfl
  have hViews : pageViews (requests.take (k + 1)) = pageViews (requests.take k) + 1 := by
    rw [hTake, pageViews_append_single]
    rfl
  have hCount : (UInt64.ofNat (pageViews (requests.take k)) + 1).toNat =
      pageViews (requests.take (k + 1)) := by
    rw [hViews] at bound
    have hNat : (UInt64.ofNat (pageViews (requests.take k))).toNat = pageViews (requests.take k) :=
      UInt64.toNat_ofNat_of_lt' (by show _ < 2 ^ 64; omega)
    rw [Memory.increment_toNat (by rw [hNat]; exact bound), hNat, hViews]
  have hPos : UInt64.ofNat (pageViews (requests.take k)) + 1 ≠ 0 := by
    intro hZero
    rw [hZero, hViews] at hCount
    exact absurd hCount (by simp)
  refine ⟨⟨_, hPos⟩, hCount, ?_⟩
  rw [responses, List.getElem?_map, results_getElem?, hGet]
  show some ((app.handle ⟨.get, "/"⟩).run Memory.answer
    (counterAfter app (requests.take k))).1.body = _
  rw [handle_root_get hService, counterAfter_counter hService]
  have hCounted := HelloWorldService.counted_ok ⟨_, hPos⟩
  rw [Router.counterResponse, hCounted]
  rfl

/-- Every `GET /` and every `HEAD /` is counted, and nothing else: in counter mode the counter is
the number of page views and each page carries the number of page views up to its own; other
requests leave the counter as it was; and in plain mode it stays 0. -/
theorem page_views_counted {mode : GreetingMode} {label : String}
    (built : buildRouter (memoryService mode) label = some app) (requests : List Request) :
    (mode = .counter → pageViews requests < 2 ^ 64 →
      (counterAfter app requests).toNat = pageViews requests ∧
      ∀ k, requests[k]? = some ⟨.get, "/"⟩ →
        ∃ count : VisitorCount, count.get.toNat = pageViews (requests.take (k + 1)) ∧
          (responses app requests)[k]?.map Response.body =
            some (.text (Greeting.numbered count).message)) ∧
    (∀ request, request.isPageView = false →
      counterAfter app (requests ++ [request]) = counterAfter app requests) ∧
    (mode = .plain → counterAfter app requests = 0) := by
  have hService := service_of_buildRouter built
  refine ⟨?_, ?_, ?_⟩
  · rintro rfl bound
    refine ⟨?_, fun k hGet => root_get_body hService hGet ?_⟩
    · rw [counterAfter_counter hService]
      exact UInt64.toNat_ofNat_of_lt' bound
    · exact ((List.take_sublist (k + 1) requests).countP_le).trans_lt bound
  · intro request hOther
    rw [counterAfter_append_single]
    exact handle_state_other hService hOther _
  · rintro rfl
    exact counterAfter_plain hService requests

/-! ### One `HEAD` request -/

def localRouter (mode : GreetingMode) : Router Memory.Mem := ⟨⟨memoryService mode, ⟨"local", rfl⟩⟩⟩

def rootGets (requests : List Request) : Nat :=
  requests.countP fun request => request.method == .get && request.path == "/"

/-- Without a `HEAD` the page views are the `GET /` requests. -/
theorem pageViews_eq_rootGets {requests : List Request}
    (noHead : ∀ request ∈ requests, request.method ≠ .head) :
    pageViews requests = rootGets requests := by
  apply List.countP_congr
  intro request hRequest
  have hMethod := noHead request hRequest
  simp [Request.isPageView, hMethod]

theorem buildRouter_local (mode : GreetingMode) :
    buildRouter (memoryService mode) "local" = some (localRouter mode) := rfl

theorem page_views_counted_local :
    (counterAfter (localRouter .counter) [⟨.get, "/"⟩, ⟨.head, "/"⟩, ⟨.get, "/health"⟩]).toNat =
      2 :=
  ((page_views_counted (buildRouter_local .counter)
    [⟨.get, "/"⟩, ⟨.head, "/"⟩, ⟨.get, "/health"⟩]).1 rfl (by decide)).1

/-- A `HEAD` of the page moves the counter although no page is shown. -/
theorem head_counted : ¬∀ (app : Router Memory.Mem) (requests : List Request),
    buildRouter (memoryService .counter) "local" = some app → rootGets requests < 2 ^ 64 →
    (counterAfter app requests).toNat = rootGets requests := by
  intro h
  have hHead := h (localRouter .counter) [⟨.head, "/"⟩] (buildRouter_local .counter)
    (by decide)
  rw [counterAfter_counter rfl] at hHead
  exact absurd hHead (by decide)

end HelloCounter.Http
