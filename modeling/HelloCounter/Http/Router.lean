import HelloCounter.Application

/-! The router and the handlers of `crates/adapter-http-axum`, over any counter store.  A `get`
route of axum serves `HEAD` with the same handler and drops the body; it answers other methods with
405, and the router answers other paths with 404. -/

namespace HelloCounter.Http

open Effect

inductive Method where
  | get | head | post | put | delete | options | connect | patch | trace
  | extension (name : String)
deriving DecidableEq

structure Request where
  method : Method
  path : String

/-- A character whose bytes `HeaderValue::from_str` accepts: its UTF-8 bytes are above 127 unless
it is ASCII. -/
def visible (c : Char) : Bool := c == '\t' || (32 ≤ c.toNat && c.toNat != 127)

structure HeaderValue where
  text : String
  visible : text.toList.all visible = true

def HeaderValue.fromStr (text : String) : Option HeaderValue :=
  if h : text.toList.all Http.visible = true then some ⟨text, h⟩ else none

inductive Body where
  | empty
  | text (content : String)
  | json (content : HealthResponse)
deriving DecidableEq

structure Response where
  status : Nat
  headers : List (String × String)
  body : Body
deriving DecidableEq

def xServedBy : String := "x-served-by"

structure AppState (E : Interface) where
  service : HelloWorldService E
  serverLabel : HeaderValue

abbrev Handled (γ : Type) := List (String × HeaderValue) × γ

def withHeaders (contentType : String) (headers : List (String × HeaderValue)) :
    List (String × String) :=
  ("content-type", contentType) :: headers.map fun header => (header.1, header.2.text)

def plainText : String := "text/plain; charset=utf-8"

/-- `AppHttpError::into_response`. -/
def errorResponse : ApplicationError → Response
  | .counterStore _ =>
    ⟨503, withHeaders plainText [], .text "counter store unavailable"⟩
  | .greeting _ =>
    ⟨500, withHeaders plainText [], .text "invalid greeting state"⟩

def intoResponse {γ : Type} (contentType : String) (body : γ → Body) :
    Except ApplicationError (Handled γ) → Response
  | .error error => errorResponse error
  | .ok (headers, content) => ⟨200, withHeaders contentType headers, body content⟩

def textResponse : Except ApplicationError (Handled String) → Response :=
  intoResponse plainText .text

def jsonResponse : Except ApplicationError (Handled HealthResponse) → Response :=
  intoResponse "application/json" .json

section

variable {E : Interface}

def getHello (state : AppState E) : Prog E (Except ApplicationError (Handled String)) := do
  let result ← state.service.hello
  return result.map fun response => ([(xServedBy, state.serverLabel)], response.message)

def getHealth (state : AppState E) : Prog E (Except ApplicationError (Handled HealthResponse)) := do
  let result ← state.service.health
  return result.map fun response => ([(xServedBy, state.serverLabel)], response)

def notFound : Response := ⟨404, [], .empty⟩

def methodNotAllowed : Response := ⟨405, [("allow", "GET,HEAD")], .empty⟩

def get (handler : Prog E Response) : Method → Prog E Response
  | .get => handler
  | .head => do
    let response ← handler
    return { response with body := .empty }
  | _ => return methodNotAllowed

structure Router (E : Interface) where
  state : AppState E

/-- The router, unless the label is no header value and `expect` panics. -/
def buildRouter (service : HelloWorldService E) (serverLabel : String) : Option (Router E) :=
  (HeaderValue.fromStr serverLabel).map fun serverLabel => ⟨{ service, serverLabel }⟩

namespace Router

def handle (app : Router E) (request : Request) : Prog E Response :=
  if request.path = "/" then
    get (do return textResponse (← getHello app.state)) request.method
  else if request.path = "/health" then
    get (do return jsonResponse (← getHealth app.state)) request.method
  else
    return notFound

/-- The response to `GET /` in counter mode, from what the store returns. -/
def counterResponse (label : HeaderValue) (result : Except CounterStoreError UInt64) : Response :=
  textResponse ((HelloWorldService.counted result).map fun response =>
    ([(xServedBy, label)], response.message))

theorem handle_root_counter (app : Router E) (hMode : app.state.service.mode = .counter) :
    app.handle ⟨.get, "/"⟩ = app.state.service.counterStore.nextVisitorCount >>= fun result =>
      .ret (counterResponse app.state.serverLabel result) := by
  simp only [handle, ↓reduceIte, get, getHello, HelloWorldService.hello, hMode, Prog.bind_assoc,
    Prog.pure_eq, Prog.ret_bind, counterResponse]

/-- A 200 response to `GET /` in counter mode greets with a positive count that the store
returned. -/
theorem counterResponse_ok {label : HeaderValue} {result : Except CounterStoreError UInt64}
    (h : (counterResponse label result).status = 200) :
    ∃ count : VisitorCount, result = .ok count.get ∧
      (counterResponse label result).body = .text (Greeting.numbered count).message := by
  unfold counterResponse at h ⊢
  cases hCounted : HelloWorldService.counted result with
  | error error =>
    rw [hCounted] at h
    cases error <;> cases h
  | ok response =>
    obtain ⟨count, rfl, rfl⟩ := HelloWorldService.counted_eq_ok hCounted
    exact ⟨count, rfl, rfl⟩

end Router

end

end HelloCounter.Http
