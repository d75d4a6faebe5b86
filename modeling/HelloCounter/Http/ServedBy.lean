import HelloCounter.Http.Router
import HelloCounter.Postgres.Store

/-! Which responses name their server.  The handlers add `X-Served-By` to the successful tuple only,
so the header is there exactly when the request reaches a handler that succeeds. -/

namespace HelloCounter.Http

open Effect

variable {E : Interface} {σ : Type} (answer : (op : E.Op) → σ → E.Reply op × σ) (s : σ)

/-- The response names the server `label`. -/
def Response.ServedBy (response : Response) (label : String) : Prop :=
  (xServedBy, label) ∈ response.headers

/-- The store's part of the page: nothing in plain mode, and a positive count in counter mode. -/
def GreetingAvailable (service : HelloWorldService E) : Prop :=
  service.mode = .plain ∨
    ∃ count, count ≠ 0 ∧ (service.counterStore.nextVisitorCount.run answer s).1 = .ok count

/-- The request is a `GET` or a `HEAD` of a page that the store lets the service answer. -/
def Answerable (service : HelloWorldService E) (request : Request) : Prop :=
  (request.method = .get ∨ request.method = .head) ∧
    (request.path = "/" ∧ GreetingAvailable answer s service ∨
      request.path = "/health" ∧ (service.counterStore.health.run answer s).1 = .ok ())

theorem errorResponse_not_servedBy (error : ApplicationError) (label : String) :
    ¬(errorResponse error).ServedBy label := by
  cases error <;> simp [Response.ServedBy, errorResponse, withHeaders, xServedBy]

theorem intoResponse_servedBy {ρ γ : Type} {contentType : String} {body : γ → Body}
    (content : ρ → γ) {result : Except ApplicationError ρ} {label : HeaderValue} :
    (intoResponse contentType body
      (result.map fun response => ([(xServedBy, label)], content response))).ServedBy
      label.text ↔ ∃ response, result = .ok response := by
  cases result with
  | error error =>
    have := errorResponse_not_servedBy error label.text
    simp [Except.map, intoResponse, this]
  | ok response => simp [Except.map, intoResponse, Response.ServedBy, withHeaders]

theorem hello_ok_iff (service : HelloWorldService E) :
    (∃ response, (service.hello.run answer s).1 = .ok response) ↔
      GreetingAvailable answer s service := by
  unfold GreetingAvailable HelloWorldService.hello
  cases service.mode with
  | plain => simp
  | counter =>
    simp only [Prog.pure_eq, Prog.run_bind, Prog.run_ret, reduceCtorEq, false_or]
    constructor
    · rintro ⟨response, hResponse⟩
      obtain ⟨count, hResult, -⟩ := HelloWorldService.counted_eq_ok hResponse
      exact ⟨count.get, count.ne_zero, hResult⟩
    · rintro ⟨value, hValue, hResult⟩
      exact ⟨_, by rw [hResult]; exact HelloWorldService.counted_ok ⟨value, hValue⟩⟩

theorem health_ok_iff (service : HelloWorldService E) :
    (∃ response, (service.health.run answer s).1 = .ok response) ↔
      (service.counterStore.health.run answer s).1 = .ok () := by
  unfold HelloWorldService.health
  simp only [Prog.run_bind]
  cases (service.counterStore.health.run answer s).1 <;> simp

theorem get_servedBy (handler : Prog E Response) (method : Method) (label : String) :
    (((get handler method).run answer s).1).ServedBy label ↔
      (method = .get ∨ method = .head) ∧ ((handler.run answer s).1).ServedBy label := by
  cases method <;> simp [get, Response.ServedBy, methodNotAllowed, xServedBy]

/-- A response names its server exactly when the request is answerable. -/
theorem handle_servedBy_iff {service : HelloWorldService E} {label : String} {app : Router E}
    (built : buildRouter service label = some app) (request : Request) :
    (((app.handle request).run answer s).1).ServedBy label ↔
      Answerable answer s service request := by
  obtain ⟨serverLabel, hLabel, rfl⟩ := Option.map_eq_some_iff.mp built
  obtain rfl : serverLabel.text = label := by
    unfold HeaderValue.fromStr at hLabel
    split at hLabel
    · cases hLabel; rfl
    · cases hLabel
  unfold Router.handle Answerable
  by_cases hRoot : request.path = "/"
  · rw [if_pos hRoot, get_servedBy, ← hello_ok_iff]
    simp [getHello, textResponse, intoResponse_servedBy HelloResponse.message, hRoot]
  by_cases hHealth : request.path = "/health"
  · rw [if_neg hRoot, if_pos hHealth, get_servedBy, ← health_ok_iff]
    simp [getHealth, jsonResponse, intoResponse_servedBy fun response => response, hHealth]
  · simp [notFound, Response.ServedBy, hRoot, hHealth]

/-! ### A primary that accepts no connection -/

def refuse : (op : Postgres.Op) → Unit → op.Reply × Unit
  | .connect _, s => (.error (.connection "connection refused"), s)
  | .exec _, s => (.error (.connection "connection closed"), s)
  | .sleep _, s => ((), s)

def haproxyService (mode : GreetingMode) : HelloWorldService Postgres.Pg :=
  ⟨mode, (Postgres.PostgresCounterStore.mk "host=haproxy").port⟩

theorem buildRouter_server_1 (mode : GreetingMode) :
    buildRouter (haproxyService mode) "server_1" =
      some ⟨⟨haproxyService mode, ⟨"server_1", rfl⟩⟩⟩ := rfl

theorem handle_plain_servedBy :
    ((Router.handle ⟨⟨haproxyService .plain, ⟨"server_1", rfl⟩⟩⟩ ⟨.get, "/"⟩).run
      refuse ()).1.ServedBy "server_1" :=
  (handle_servedBy_iff refuse () (buildRouter_server_1 .plain) ⟨.get, "/"⟩).mpr
    ⟨.inl rfl, .inl ⟨rfl, .inl rfl⟩⟩

theorem handle_refused_not_servedBy : ¬∀ (E : Interface) (σ : Type)
    (answer : (op : E.Op) → σ → E.Reply op × σ) (s : σ) (service : HelloWorldService E)
    (label : String) (app : Router E), buildRouter service label = some app →
    ∀ request, (((app.handle request).run answer s).1).ServedBy label := by
  intro h
  have hServed := h _ _ refuse () _ _ _ (buildRouter_server_1 .counter) ⟨.get, "/"⟩
  rw [Router.handle_root_counter _ rfl] at hServed
  have hResponse : ((haproxyService .counter).counterStore.nextVisitorCount.run refuse ()).1 =
      .error (.unavailable "connection refused") := rfl
  rw [Prog.run_bind, hResponse] at hServed
  exact errorResponse_not_servedBy (.counterStore (.unavailable "connection refused")) _ hServed

end HelloCounter.Http
