import HelloCounter.Client.HelloWorldClient
import HelloCounter.Http.PageViews

/-! The client talking to the router.  A call sends one request; the network delivers the request
and its response, or fails before the server gets the request, or after it has served it.  What the
client returns is the result of the service, run once by each call that reaches it.  JSON is a
parameter: how the server writes a health response, and what the client reads from a text. -/

namespace HelloCounter.Client

open Effect Whatwg

structure Json where
  encode : HealthResponse → String
  decode : String → Except RequestError HealthResponse

def Json.bodyText (json : Json) : Http.Body → String
  | .empty => ""
  | .text content => content
  | .json content => json.encode content

/-- The client's view of a response. -/
def Json.received (json : Json) (response : Http.Response) : Response where
  status := response.status
  text := .ok (json.bodyText response.body)
  json := json.decode (json.bodyText response.body)

inductive Fate where
  | delivered
  /-- The request does not reach the server. -/
  | refused (error : RequestError)
  /-- The server answers the request, and the response is lost. -/
  | lost (error : RequestError)

/-- The server's state, and how many requests the clients have sent. -/
structure Link (σ : Type) where
  server : σ
  sent : Nat

section

variable {E : Interface} {σ : Type}

/-- What a request that the server gave `served` brings back. -/
def Fate.outcome {ρ γ : Type} (fate : Fate) (served : ρ × σ) (s : σ) (deliver : ρ → γ)
    (fail : RequestError → γ) : γ × σ :=
  match fate with
  | .delivered => (deliver served.1, served.2)
  | .refused error => (fail error, s)
  | .lost error => (fail error, served.2)

def transport (json : Json) (app : Http.Router E) (answer : (op : E.Op) → σ → E.Reply op × σ)
    (fates : Nat → Fate) (url : Url) (link : Link σ) :
    Except RequestError Response × Link σ :=
  let served := (app.handle ⟨.get, String.ofList url.path⟩).run answer link.server
  let outcome := (fates link.sent).outcome served link.server
    (fun response => .ok (json.received response)) .error
  (outcome.1, ⟨outcome.2, link.sent + 1⟩)

inductive ClientResult where
  | hello (result : Except ClientError String)
  | health (result : Except ClientError HealthResponse)
deriving DecidableEq

def HelloWorldClient.call (client : HelloWorldClient) :
    ServiceRequest → Prog HttpClient ClientResult
  | .hello => do return .hello (← client.hello)
  | .health => do return .health (← client.health)

def ClientResult.failed (error : ClientError) : ServiceRequest → ClientResult
  | .hello => .hello (.error error)
  | .health => .health (.error error)

/-! ### The service as a caller sees it -/

/-- The error that a client gets for an error of the service. -/
def remoteError : ApplicationError → ClientError
  | .counterStore _ => .unexpectedStatus 503 "counter store unavailable"
  | .greeting _ => .unexpectedStatus 500 "invalid greeting state"

def ClientResult.ofService : ServiceResult → ClientResult
  | .hello result => .hello ((result.map HelloResponse.message).mapError remoteError)
  | .health result => .health (result.mapError remoteError)

/-- The service behind a client, or nothing when the base path is not the server's root. -/
def remoteCall (service : HelloWorldService E) (mounted : Bool) (request : ServiceRequest) :
    Prog E ClientResult :=
  if mounted then do return .ofService (← service.serve request)
  else return .failed (.unexpectedStatus 404 "") request

/-- Each call that reaches the server runs the service once. -/
def remote (service : HelloWorldService E) (mounted : Bool)
    (answer : (op : E.Op) → σ → E.Reply op × σ) (fates : Nat → Fate) :
    List ServiceRequest → Link σ → List (ClientResult × Link σ)
  | [], _ => []
  | request :: requests, link =>
    let outcome := (fates link.sent).outcome
      ((remoteCall service mounted request).run answer link.server) link.server id
      fun error => .failed (.request error) request
    (outcome.1, ⟨outcome.2, link.sent + 1⟩) ::
      remote service mounted answer fates requests ⟨outcome.2, link.sent + 1⟩

/-! ### One call -/

def reference : ServiceRequest → Reference
  | .hello => root
  | .health => healthPath

/-- What the client makes of the response. -/
def readResponse : ServiceRequest → Except RequestError Response → ClientResult
  | .hello, result => .hello (Client.received parseTextResponse result)
  | .health, result => .health (Client.received parseJsonResponse result)

theorem read_error (request : ServiceRequest) (error : RequestError) :
    readResponse request (.error error) = .failed (.request error) request := by
  cases request <;> rfl

theorem call_run {τ : Type} (answer : (op : HttpClient.Op) → τ → HttpClient.Reply op × τ)
    (client : HelloWorldClient) (request : ServiceRequest) (s : τ) :
    (client.call request).run answer s =
      (readResponse request
          (answer (client.endpoint (reference request)) s).1,
        (answer (client.endpoint (reference request)) s).2) := by
  cases request <;> rfl

variable (answer : (op : E.Op) → σ → E.Reply op × σ) (s : σ)

theorem handle_root_run (app : Http.Router E) :
    (app.handle ⟨.get, "/"⟩).run answer s =
      (Http.textResponse ((app.state.service.hello.run answer s).1.map fun response =>
          ([(Http.xServedBy, app.state.serverLabel)], response.message)),
        (app.state.service.hello.run answer s).2) := by
  show ((Http.getHello app.state >>= fun result => Prog.ret (Http.textResponse result)).run
    answer s) = _
  simp only [Http.getHello, Prog.run_bind, Prog.pure_eq, Prog.run_ret]

theorem handle_health_run (app : Http.Router E) :
    (app.handle ⟨.get, "/health"⟩).run answer s =
      (Http.jsonResponse ((app.state.service.health.run answer s).1.map fun response =>
          ([(Http.xServedBy, app.state.serverLabel)], response)),
        (app.state.service.health.run answer s).2) := by
  show ((Http.getHealth app.state >>= fun result => Prog.ret (Http.jsonResponse result)).run
    answer s) = _
  simp only [Http.getHealth, Prog.run_bind, Prog.pure_eq, Prog.run_ret]

/-- The client reads the greeting's text, or the status and the text of an error. -/
theorem read_hello (json : Json) (label : Http.HeaderValue)
    (result : Except ApplicationError HelloResponse) :
    readResponse .hello (.ok (json.received (Http.textResponse (result.map fun response =>
        ([(Http.xServedBy, label)], response.message))))) =
      .ofService (.hello result) := by
  rcases result with (error | error) | response <;> rfl

/-- The client reads the health response that the server wrote. -/
theorem read_health (json : Json) (label : Http.HeaderValue)
    (result : Except ApplicationError HealthResponse)
    (hJson : ∀ response, result = .ok response →
      json.decode (json.encode response) = .ok response) :
    readResponse .health (.ok (json.received (Http.jsonResponse (result.map fun response =>
        ([(Http.xServedBy, label)], response))))) =
      .ofService (.health result) := by
  rcases result with (error | error) | response
  · rfl
  · rfl
  · show ClientResult.health ((json.decode (json.encode response)).mapError _) = _
    rw [hJson response rfl]
    rfl

theorem health_storage (service : HelloWorldService E) {response : HealthResponse}
    (h : (service.health.run answer s).1 = .ok response) :
    response = { status := "ok", storage := service.counterStore.storageName } := by
  rw [HelloWorldService.health, Prog.run_bind] at h
  cases hStore : (service.counterStore.health.run answer s).1 with
  | error error => rw [hStore] at h; cases h
  | ok _ => rw [hStore] at h; cases h; rfl

def pathOf : ServiceRequest → String
  | .hello => "/"
  | .health => "/health"

/-- The server's root: a call reads the service's result, and the service runs once. -/
theorem served_root {json : Json} {app : Http.Router E} {service : HelloWorldService E}
    (hService : app.state.service = service)
    (hJson : json.decode (json.encode ⟨"ok", service.counterStore.storageName⟩) =
      .ok ⟨"ok", service.counterStore.storageName⟩) (request : ServiceRequest) :
    (readResponse request
        (.ok (json.received ((app.handle ⟨.get, pathOf request⟩).run answer s).1)),
      ((app.handle ⟨.get, pathOf request⟩).run answer s).2) =
      (remoteCall service true request).run answer s := by
  subst hService
  cases request with
  | hello =>
    rw [pathOf, handle_root_run]
    simp only [remoteCall, if_pos, HelloWorldService.serve, Prog.run_bind, Prog.pure_eq,
      Prog.run_ret, read_hello]
  | health =>
    rw [pathOf, handle_health_run]
    have hRead := read_health json app.state.serverLabel
      (app.state.service.health.run answer s).1 fun response h => by
        rw [health_storage answer s _ h]
        exact hJson
    simp only [remoteCall, if_pos, HelloWorldService.serve, Prog.run_bind, Prog.pure_eq,
      Prog.run_ret, hRead]

theorem served_elsewhere (json : Json) (app : Http.Router E) (service : HelloWorldService E)
    {path : String} (hRoot : path ≠ "/") (hHealth : path ≠ "/health") (request : ServiceRequest) :
    (readResponse request (.ok (json.received ((app.handle ⟨.get, path⟩).run answer s).1)),
      ((app.handle ⟨.get, path⟩).run answer s).2) =
      (remoteCall service false request).run answer s := by
  have hHandle : app.handle ⟨.get, path⟩ = .ret Http.notFound := by
    simp only [Http.Router.handle, if_neg hRoot, if_neg hHealth]
    rfl
  rw [hHandle]
  cases request <;> rfl

end

/-! ### The paths that a client requests -/

variable {parse : String → Except String Url} {text : String} {url : Url}
  {client : HelloWorldClient}

theorem request_path (hParse : parse text = .ok url)
    (hNew : HelloWorldClient.new parse text = .ok client) (request : ServiceRequest) :
    (client.endpoint (reference request)).path =
      dropSlash url.path ++ (pathOf request).toList := by
  obtain ⟨hRoot, hHealth⟩ := endpoint_paths hParse hNew
  cases request with
  | hello => exact hRoot
  | health => exact hHealth

theorem dropSlash_path_eq_nil (url : Url) : dropSlash url.path = [] ↔ url.path = "/".toList := by
  obtain ⟨segments, last, -, hPath, -⟩ := url.path_last
  constructor
  · intro h
    unfold dropSlash at h
    split at h
    · next hSlash =>
      obtain ⟨before, hBefore⟩ := endsWithSlash_iff.mp hSlash
      rw [hBefore, List.dropLast_concat] at h
      rw [hBefore, h]
      rfl
    · rw [hPath] at h
      simp at h
  · intro h
    rw [h]
    rfl

theorem path_ne {before : List Char} (h : before ≠ []) (request : ServiceRequest) :
    String.ofList (before ++ (pathOf request).toList) ≠ "/" ∧
      String.ofList (before ++ (pathOf request).toList) ≠ "/health" := by
  have ne : ∀ {path : String}, before ++ (pathOf request).toList ≠ path.toList →
      String.ofList (before ++ (pathOf request).toList) ≠ path := by
    intro path hNe hEq
    apply hNe
    rw [← hEq, String.toList_ofList]
  have hLength := List.length_pos_of_ne_nil h
  cases request with
  | hello =>
    refine ⟨ne fun hEq => ?_, ne fun hEq => ?_⟩
    · exact h (List.append_left_eq_self.mp hEq)
    · have hLast := congrArg List.getLast? hEq
      rw [List.getLast?_append] at hLast
      exact absurd (show some '/' = some 'h' from hLast) (by decide)
  | health =>
    refine ⟨ne fun hEq => ?_, ne fun hEq => ?_⟩
    · have := congrArg List.length hEq
      rw [List.length_append] at this
      exact absurd this (by show before.length + 7 ≠ 1; omega)
    · exact h (List.append_left_eq_self.mp hEq)

/-! ### Any sequence of calls -/

variable {E : Interface} {σ : Type}

/-- One call through the network is one run of the service behind it. -/
theorem call_transport {json : Json} {service : HelloWorldService E} {label : String}
    {app : Http.Router E} (built : Http.buildRouter service label = some app)
    (hParse : parse text = .ok url) (hNew : HelloWorldClient.new parse text = .ok client)
    (hJson : json.decode (json.encode ⟨"ok", service.counterStore.storageName⟩) =
      .ok ⟨"ok", service.counterStore.storageName⟩)
    (answer : (op : E.Op) → σ → E.Reply op × σ) (fates : Nat → Fate) (request : ServiceRequest)
    (link : Link σ) :
    (client.call request).run (transport json app answer fates) link =
      let outcome := (fates link.sent).outcome
        ((remoteCall service (decide (url.path = "/".toList)) request).run answer link.server)
        link.server id fun error => .failed (.request error) request
      (outcome.1, ⟨outcome.2, link.sent + 1⟩) := by
  have hPath := request_path hParse hNew request
  have served : (readResponse request (.ok (json.received ((app.handle
        ⟨.get, String.ofList (client.endpoint (reference request)).path⟩).run answer
          link.server).1)),
      ((app.handle ⟨.get, String.ofList (client.endpoint (reference request)).path⟩).run answer
        link.server).2) =
      (remoteCall service (decide (url.path = "/".toList)) request).run answer link.server := by
    rw [hPath]
    by_cases hRoot : url.path = "/".toList
    · rw [(dropSlash_path_eq_nil url).mpr hRoot, List.nil_append, String.ofList_toList,
        decide_eq_true hRoot]
      exact served_root answer link.server (Http.service_of_buildRouter built) hJson request
    · obtain ⟨hNe, hNe'⟩ := path_ne (fun h => hRoot ((dropSlash_path_eq_nil url).mp h)) request
      rw [decide_eq_false hRoot]
      exact served_elsewhere answer link.server json app service hNe hNe' request
  rw [call_run, ← served]
  unfold transport
  cases fates link.sent with
  | delivered => rfl
  | refused error => simp only [Fate.outcome, read_error]
  | lost error => simp only [Fate.outcome, read_error]

/-- Calls through the network give the results of the service behind it, which every call that
reaches it runs once; a client whose base path is not the server's root reaches nothing. -/
theorem remote_calls {json : Json} {service : HelloWorldService E} {label : String}
    {app : Http.Router E} (built : Http.buildRouter service label = some app)
    (hParse : parse text = .ok url) (hNew : HelloWorldClient.new parse text = .ok client)
    (hJson : json.decode (json.encode ⟨"ok", service.counterStore.storageName⟩) =
      .ok ⟨"ok", service.counterStore.storageName⟩)
    (answer : (op : E.Op) → σ → E.Reply op × σ) (fates : Nat → Fate)
    (requests : List ServiceRequest) (link : Link σ) :
    Prog.results (transport json app answer fates) client.call requests link =
      remote service (decide (url.path = "/".toList)) answer fates requests link := by
  induction requests generalizing link with
  | nil => rfl
  | cons request requests ih =>
    rw [Prog.results, remote, ih, call_transport built hParse hNew hJson answer fates request link]

/-! ### The counter behind a client -/

def Fate.arrives : Fate → Bool
  | .refused _ => false
  | _ => true

/-- The greetings among the calls that reached the server. -/
def arrivals (fates : Nat → Fate) (requests : List ServiceRequest) (sent : Nat) : Nat :=
  (requests.zipIdx sent).countP fun (request, k) => request == .hello && (fates k).arrives

theorem arrivals_cons (fates : Nat → Fate) (request : ServiceRequest)
    (requests : List ServiceRequest) (sent : Nat) :
    arrivals fates (request :: requests) sent = arrivals fates requests (sent + 1) +
      if request == .hello && (fates sent).arrives then 1 else 0 := by
  rw [arrivals, List.zipIdx_cons, List.countP_cons]
  rfl

theorem serve_memory_hello (n : UInt64) :
    (remoteCall (Http.memoryService .counter) true .hello).run Memory.answer n =
      (.ofService (.hello (HelloWorldService.counted (.ok (n + 1)))), n + 1) := rfl

/-- The counter after one call: one more for a greeting that reaches the server. -/
theorem outcome_memory (fate : Fate) (request : ServiceRequest) (n : UInt64)
    (fail : RequestError → ClientResult) :
    (fate.outcome ((remoteCall (Http.memoryService .counter) true request).run Memory.answer n) n id
      fail).2 = if request == .hello && fate.arrives then n + 1 else n := by
  cases request <;> cases fate <;> rfl

theorem remote_memory (fates : Nat → Fate) {requests : List ServiceRequest} (link : Link UInt64)
    (bound : link.server.toNat + arrivals fates requests link.sent < 2 ^ 64) {k : Nat}
    (hCall : requests[k]? = some .hello) (hFate : fates (link.sent + k) = .delivered) :
    ∃ count : VisitorCount,
      count.get.toNat =
        link.server.toNat + arrivals fates (requests.take (k + 1)) link.sent ∧
      ((remote (Http.memoryService .counter) true Memory.answer fates requests link)[k]?).map
        Prod.fst = some (.hello (.ok (Greeting.numbered count).message)) := by
  induction requests generalizing link k with
  | nil => cases hCall
  | cons request requests ih =>
    rw [arrivals_cons] at bound
    cases k with
    | zero =>
      cases Option.some.inj hCall
      rw [Nat.add_zero] at hFate
      have hRoom : link.server.toNat + 1 < UInt64.size := by
        rw [hFate] at bound
        show _ < 2 ^ 64
        simp only [Fate.arrives, beq_self_eq_true, Bool.and_self, if_true] at bound
        omega
      have hNat := Memory.increment_toNat hRoom
      have hPos : link.server + 1 ≠ 0 := by
        intro hZero
        rw [hZero] at hNat
        simp at hNat
      refine ⟨⟨link.server + 1, hPos⟩, ?_, ?_⟩
      · rw [List.take_succ_cons, List.take_zero, arrivals_cons, hFate]
        exact hNat
      · rw [remote, hFate, serve_memory_hello, HelloWorldService.counted_ok ⟨link.server + 1, hPos⟩]
        rfl
    | succ k =>
      rw [List.getElem?_cons_succ] at hCall
      rw [remote, List.getElem?_cons_succ, List.take_succ_cons, arrivals_cons]
      generalize hOutcome : (fates link.sent).outcome
        ((remoteCall (Http.memoryService .counter) true request).run Memory.answer link.server)
        link.server id (fun error => .failed (.request error) request) = outcome
      have hServer : outcome.2.toNat = link.server.toNat +
          if request == .hello && (fates link.sent).arrives then 1 else 0 := by
        rw [← hOutcome, outcome_memory]
        split
        · next hArrives =>
          rw [if_pos hArrives] at bound
          exact Memory.increment_toNat (by show _ < 2 ^ 64; omega)
        · rfl
      have bound' : outcome.2.toNat + arrivals fates requests (link.sent + 1) < 2 ^ 64 := by omega
      have hFate' : fates (link.sent + 1 + k) = .delivered := by
        rw [← hFate]
        congr 1
        omega
      obtain ⟨count, hCount, hResult⟩ :=
        ih ⟨outcome.2, link.sent + 1⟩ bound' hCall hFate'
      refine ⟨count, ?_, hResult⟩
      rw [show count.get.toNat = outcome.2.toNat +
        arrivals fates (requests.take (k + 1)) (link.sent + 1) from hCount, hServer]
      omega

/-- A client of a server over a fresh memory store in counter mode: each greeting that comes back
carries the number of greetings that reached the server so far, its own included, and so skips the
ones whose responses were lost. -/
theorem greetings_numbered {json : Json} {label : String} {app : Http.Router Memory.Mem}
    (built : Http.buildRouter (Http.memoryService .counter) label = some app)
    (hParse : parse text = .ok url) (hNew : HelloWorldClient.new parse text = .ok client)
    (hRoot : url.path = "/".toList)
    (hJson : json.decode (json.encode ⟨"ok", "memory"⟩) = .ok ⟨"ok", "memory"⟩)
    (fates : Nat → Fate) {requests : List ServiceRequest}
    (bound : arrivals fates requests 0 < 2 ^ 64) {k : Nat} (hCall : requests[k]? = some .hello)
    (hFate : fates k = .delivered) :
    ∃ count : VisitorCount, count.get.toNat = arrivals fates (requests.take (k + 1)) 0 ∧
      ((Prog.results (transport json app Memory.answer fates) client.call requests ⟨0, 0⟩)[k]?).map
        Prod.fst = some (.hello (.ok (Greeting.numbered count).message)) := by
  rw [remote_calls built hParse hNew hJson Memory.answer fates requests, decide_eq_true hRoot]
  obtain ⟨count, hCount, hResult⟩ := remote_memory fates ⟨0, 0⟩ (k := k)
    (by simpa using bound) hCall (by simpa using hFate)
  exact ⟨count, by simpa using hCount, hResult⟩

/-! ### Three greetings, the second of which is lost -/

/-- JSON of the health response of the memory store. -/
def memoryJson : Json where
  encode _ := "\x7b\"status\":\"ok\",\"storage\":\"memory\"\x7d"
  decode text :=
    if text = "\x7b\"status\":\"ok\",\"storage\":\"memory\"\x7d" then .ok ⟨"ok", "memory"⟩
    else .error ⟨"error decoding response body", none⟩

def secondLost : Nat → Fate
  | 1 => .lost ⟨"connection closed before message completed", none⟩
  | _ => .delivered

theorem parse_root : parseLocalhost "http://localhost/" = .ok (localhost "/".toList) := rfl

theorem new_root : HelloWorldClient.new parseLocalhost "http://localhost/" =
    .ok ⟨localhost "/".toList⟩ := rfl

def fourCalls : List ServiceRequest := [.hello, .hello, .health, .hello]

theorem remote_calls_root :
    Prog.results (transport memoryJson (Http.localRouter .counter) Memory.answer secondLost)
        (HelloWorldClient.call ⟨localhost "/".toList⟩) fourCalls ⟨0, 0⟩ =
      remote (Http.memoryService .counter) true Memory.answer secondLost fourCalls ⟨0, 0⟩ :=
  remote_calls (Http.buildRouter_local .counter) parse_root new_root rfl Memory.answer secondLost
    fourCalls ⟨0, 0⟩

theorem greetings_skip : ∃ count : VisitorCount, count.get.toNat = 3 ∧
    ((Prog.results (transport memoryJson (Http.localRouter .counter) Memory.answer secondLost)
      (HelloWorldClient.call ⟨localhost "/".toList⟩) fourCalls ⟨0, 0⟩)[3]?).map Prod.fst =
        some (.hello (.ok (Greeting.numbered count).message)) := by
  have hBound : arrivals secondLost fourCalls 0 < 2 ^ 64 := by decide
  have hCall : fourCalls[3]? = some .hello := rfl
  have hJson : memoryJson.decode (memoryJson.encode ⟨"ok", "memory"⟩) = .ok ⟨"ok", "memory"⟩ := rfl
  obtain ⟨count, hCount, hResult⟩ := greetings_numbered (Http.buildRouter_local .counter) parse_root
    new_root rfl hJson secondLost hBound hCall rfl
  exact ⟨count, hCount.trans (by decide), hResult⟩

end HelloCounter.Client
