import HelloCounter.Http.PageViews

/-! What each request asks of the store: a page view in counter mode the next count, a view of the
health page the health, and any other request nothing. -/

namespace HelloCounter.Http

open Effect

/-- The requests that reach `get_health`. -/
def Request.isHealthView (request : Request) : Bool :=
  (request.method == .get || request.method == .head) && request.path == "/health"

/-- The response to `GET /health`, from what the store returns. -/
def healthResponse (label : HeaderValue) (storage : String)
    (result : Except CounterStoreError Unit) : Response :=
  jsonResponse ((result.mapError ApplicationError.counterStore).map fun _ =>
    ([(xServedBy, label)], { status := "ok", storage }))

def Response.withoutBody (response : Response) : Response := { response with body := .empty }

section

variable {E : Interface}

/-- The program of a request, by what it asks of the store; a `HEAD` drops the body only. -/
inductive Asks (app : Router E) (request : Request) : Prog E Response → Prop
  | count (mode : app.state.service.mode = .counter) (views : request.isPageView = true)
      (shape : Response → Response)
      (status : ∀ response, (shape response).status = response.status) :
      Asks app request (app.state.service.counterStore.nextVisitorCount >>= fun result =>
        .ret (shape (Router.counterResponse app.state.serverLabel result)))
  | health (views : request.isHealthView = true) (shape : Response → Response)
      (status : ∀ response, (shape response).status = response.status) :
      Asks app request (app.state.service.counterStore.health >>= fun result =>
        .ret (shape (healthResponse app.state.serverLabel
          app.state.service.counterStore.storageName result)))
  | nothing (response : Response) (status : response.status < 500) :
      Asks app request (.ret response)

theorem getHealth_bind (app : Router E) :
    (do return jsonResponse (← getHealth app.state) : Prog E Response) =
      app.state.service.counterStore.health >>= fun result =>
        .ret (healthResponse app.state.serverLabel
          app.state.service.counterStore.storageName result) := by
  simp only [getHealth, HelloWorldService.health, Prog.bind_assoc, Prog.pure_eq, Prog.ret_bind]
  congr 1
  funext result
  cases result <;> rfl

theorem getHello_plain (app : Router E) (hMode : app.state.service.mode = .plain) :
    (do return textResponse (← getHello app.state) : Prog E Response) =
      .ret ⟨200, withHeaders plainText [(xServedBy, app.state.serverLabel)],
        .text Greeting.plain.message⟩ := by
  simp only [getHello, HelloWorldService.hello, hMode, Prog.pure_eq, Prog.ret_bind]
  rfl

theorem getHello_counter (app : Router E) (hMode : app.state.service.mode = .counter) :
    (do return textResponse (← getHello app.state) : Prog E Response) =
      app.state.service.counterStore.nextVisitorCount >>= fun result =>
        .ret (Router.counterResponse app.state.serverLabel result) :=
  Router.handle_root_counter app hMode

theorem handle_asks (app : Router E) (request : Request) :
    Asks app request (app.handle request) := by
  obtain ⟨method, path⟩ := request
  unfold Router.handle
  by_cases hRoot : path = "/"
  · subst hRoot
    rw [if_pos rfl]
    cases hMode : app.state.service.mode with
    | plain =>
      rw [getHello_plain app hMode]
      cases method <;> exact .nothing _ (Nat.le_of_ble_eq_true rfl)
    | counter =>
      rw [getHello_counter app hMode]
      cases method with
      | get => exact .count hMode rfl id fun _ => rfl
      | head =>
        rw [get, Prog.bind_assoc]
        exact .count hMode rfl Response.withoutBody fun _ => rfl
      | _ => exact .nothing _ (by decide)
  by_cases hHealth : path = "/health"
  · subst hHealth
    rw [if_neg hRoot, if_pos rfl, getHealth_bind]
    cases method with
    | get => exact .health rfl id fun _ => rfl
    | head =>
      rw [get, Prog.bind_assoc]
      exact .health rfl Response.withoutBody fun _ => rfl
    | _ => exact .nothing _ (by decide)
  · rw [if_neg hRoot, if_neg hHealth]
    exact .nothing _ (by decide)

end

end HelloCounter.Http
