import HelloCounter.Application
import HelloCounter.Library.Url

/-! The client of `crates/client-rust`.  `new` puts a slash behind the base path unless one stands
there, and the endpoints are resolved against the base.  `Url::parse` is a parameter. -/

namespace HelloCounter.Client

open Effect Whatwg

/-- A `reqwest::Error`. -/
structure RequestError where
  message : String
  status : Option Nat
deriving DecidableEq

inductive ClientError where
  | invalidBaseUrl (error : String)
  | request (error : RequestError)
  | unexpectedStatus (status : Nat) (body : String)
deriving DecidableEq

def ClientError.status : ClientError → Option Nat
  | .invalidBaseUrl _ => none
  | .request error => error.status
  | .unexpectedStatus status _ => some status

/-- A response: its status, and what reading its body gives. -/
structure Response where
  status : Nat
  text : Except RequestError String
  json : Except RequestError HealthResponse

/-- One operation: a `GET` of a URL. -/
abbrev HttpClient : Interface := ⟨Url, fun _ => Except RequestError Response⟩

def get (url : Url) : Prog HttpClient (Except RequestError Response) :=
  Prog.perform (E := HttpClient) url

def isSuccess (status : Nat) : Bool := 200 ≤ status && status < 300

def parseResponse {α : Type} (response : Response) (read : Response → Except RequestError α) :
    Except ClientError α :=
  if isSuccess response.status then (read response).mapError .request
  else
    let body := match response.text with
      | .ok body => body
      | .error _ => ""
    .error (.unexpectedStatus response.status body)

def parseJsonResponse (response : Response) : Except ClientError HealthResponse :=
  parseResponse response Response.json

def parseTextResponse (response : Response) : Except ClientError String :=
  parseResponse response Response.text

/-- `send().await?` and the parser of the response. -/
def received {α : Type} (parse : Response → Except ClientError α) :
    Except RequestError Response → Except ClientError α
  | .error error => .error (.request error)
  | .ok response => parse response

structure HelloWorldClient where
  baseUrl : Url

def slash (c : Char) : Bool := c == '/'

/-- `trim_end_matches('/')`. -/
def trimEnd (text : List Char) : List Char := text.rdropWhile slash

/-- `ends_with('/')`. -/
def endsWithSlash (text : List Char) : Bool := text.getLast? == some '/'

def root : Reference := ⟨[], by simp, by simp⟩

def healthPath : Reference := ⟨"health".toList, List.all_eq_true.mp rfl, by decide⟩

namespace HelloWorldClient

def new (parse : String → Except String Url) (baseUrl : String) :
    Except ClientError HelloWorldClient := do
  let baseUrl ← (parse baseUrl).mapError .invalidBaseUrl
  if !endsWithSlash baseUrl.path then
    let newPath := trimEnd baseUrl.path ++ "/".toList
    return ⟨baseUrl.setPath newPath⟩
  else return ⟨baseUrl⟩

/-- A reference of one segment resolves against every base, so `join` does not fail. -/
def endpoint (client : HelloWorldClient) (path : Reference) : Url := client.baseUrl.join path

def hello (client : HelloWorldClient) : Prog HttpClient (Except ClientError String) := do
  return received parseTextResponse (← get (client.endpoint root))

def health (client : HelloWorldClient) : Prog HttpClient (Except ClientError HealthResponse) := do
  return received parseJsonResponse (← get (client.endpoint healthPath))

/-! ### Requests -/

section

variable {σ : Type} (answer : (op : HttpClient.Op) → σ → HttpClient.Reply op × σ) (s : σ)

/-- Whatever the server answers, `hello` sends one request. -/
theorem hello_ops (client : HelloWorldClient) :
    client.hello.ops answer s = [client.endpoint root] := by
  rfl

theorem health_ops (client : HelloWorldClient) :
    client.health.ops answer s = [client.endpoint healthPath] := by
  rfl

/-- A response without success is an error with its status. -/
theorem received_status {α : Type} {read : Response → Except RequestError α}
    {result : Except RequestError Response} {response : Response}
    (hResult : result = .ok response) (hStatus : isSuccess response.status = false) :
    ∃ error, received (parseResponse · read) result = .error error ∧
      error.status = some response.status := by
  rw [hResult, received, parseResponse, hStatus]
  exact ⟨_, rfl, rfl⟩

theorem hello_status (client : HelloWorldClient) {response : Response}
    (hResult : (answer (client.endpoint root) s).1 = .ok response)
    (hStatus : isSuccess response.status = false) :
    ∃ error, (client.hello.run answer s).1 = .error error ∧
      error.status = some response.status :=
  received_status hResult hStatus

theorem health_status (client : HelloWorldClient) {response : Response}
    (hResult : (answer (client.endpoint healthPath) s).1 = .ok response)
    (hStatus : isSuccess response.status = false) :
    ∃ error, (client.health.run answer s).1 = .error error ∧
      error.status = some response.status :=
  received_status hResult hStatus

end

end HelloWorldClient

/-! ### Trailing slashes -/

/-- The text less one trailing slash, if it has one. -/
def dropSlash (text : List Char) : List Char :=
  if endsWithSlash text then text.dropLast else text

theorem endsWithSlash_append (text : List Char) {last : List Char} (hLast : '/' ∉ last) :
    endsWithSlash (text ++ '/' :: last) = true ↔ last = [] := by
  rw [endsWithSlash, beq_iff_eq, List.getLast?_append_cons]
  constructor
  · intro h
    by_contra hNil
    rw [List.getLast?_cons_of_ne_nil hNil] at h
    exact hLast (List.mem_of_getLast? h)
  · rintro rfl
    rfl

theorem endsWithSlash_iff {text : List Char} :
    endsWithSlash text = true ↔ ∃ before, text = before ++ ['/'] := by
  rw [endsWithSlash, beq_iff_eq, List.getLast?_eq_some_iff]

theorem trimEnd_of_not {text : List Char} (h : endsWithSlash text = false) :
    trimEnd text = text := by
  apply List.rdropWhile_eq_self_iff.mpr
  intro hNil hSlash
  have hLast := List.getLast?_eq_some_getLast hNil
  rw [beq_iff_eq.mp hSlash] at hLast
  rw [endsWithSlash, hLast] at h
  cases h

theorem trimEnd_append_slash (text : List Char) : trimEnd (text ++ ['/']) = trimEnd text :=
  List.rdropWhile_concat_pos _ _ _ rfl

theorem trimEnd_eq_self_iff {text : List Char} :
    trimEnd text = text ↔ endsWithSlash text = false := by
  refine ⟨fun h => ?_, trimEnd_of_not⟩
  by_contra hSlash
  obtain ⟨before, rfl⟩ := endsWithSlash_iff.mp (Bool.not_eq_false _ ▸ hSlash)
  rw [trimEnd_append_slash] at h
  have hLength : (trimEnd before).length ≤ before.length :=
    (List.rdropWhile_prefix slash before).length_le
  rw [h, List.length_append, List.length_singleton] at hLength
  omega

theorem dropSlash_append_slash (text : List Char) : dropSlash (text ++ ['/']) = text := by
  rw [dropSlash, if_pos (endsWithSlash_iff.mpr ⟨text, rfl⟩), List.dropLast_concat]

theorem trimEnd_dropSlash (text : List Char) : trimEnd (dropSlash text) = trimEnd text := by
  cases hSlash : endsWithSlash text with
  | false =>
    rw [dropSlash, hSlash]
    rfl
  | true =>
    obtain ⟨before, rfl⟩ := endsWithSlash_iff.mp hSlash
    rw [dropSlash_append_slash, trimEnd_append_slash]

/-- Behind a text without its last slash no slash is left exactly when it does not end in two. -/
theorem endsWithSlash_dropSlash_iff (text : List Char) :
    endsWithSlash (dropSlash text) = true ↔ ['/', '/'] <:+ text := by
  cases hSlash : endsWithSlash text with
  | false =>
    rw [dropSlash, hSlash, if_neg Bool.false_ne_true, hSlash]
    refine iff_of_false Bool.false_ne_true fun hSuffix => ?_
    obtain ⟨before, rfl⟩ := hSuffix
    have hEnds : endsWithSlash (before ++ ['/', '/']) = true :=
      endsWithSlash_iff.mpr ⟨before ++ ['/'], (List.append_assoc before ['/'] ['/']).symm⟩
    rw [hSlash] at hEnds
    cases hEnds
  | true =>
    obtain ⟨before, rfl⟩ := endsWithSlash_iff.mp hSlash
    rw [dropSlash_append_slash, endsWithSlash_iff]
    constructor
    · rintro ⟨before, rfl⟩
      exact ⟨before, (List.append_assoc before ['/'] ['/']).symm⟩
    · rintro ⟨before', h⟩
      have hBefore : before' ++ ['/'] ++ ['/'] = before ++ ['/'] := by
        rw [← h, List.append_assoc]
        rfl
      exact ⟨before', (List.append_cancel_right hBefore).symm⟩

theorem dropSlash_eq_trimEnd_iff (text : List Char) :
    dropSlash text = trimEnd text ↔ ¬['/', '/'] <:+ text := by
  rw [← endsWithSlash_dropSlash_iff, Bool.not_eq_true, ← trimEnd_eq_self_iff, trimEnd_dropSlash,
    eq_comm]

theorem eq_dropSlash_append {text : List Char} (h : ['/', '/'] <:+ text) :
    text = dropSlash text ++ ['/'] := by
  obtain ⟨before, rfl⟩ := h
  rw [show before ++ ['/', '/'] = before ++ ['/'] ++ ['/'] from
    (List.append_assoc before ['/'] ['/']).symm, dropSlash_append_slash]

/-- Two texts that differ in trailing slashes only lose the difference exactly when neither ends in
two. -/
theorem dropSlash_eq_iff {text text' : List Char} (h : trimEnd text = trimEnd text') :
    dropSlash text = dropSlash text' ↔
      text = text' ∨ ¬['/', '/'] <:+ text ∧ ¬['/', '/'] <:+ text' := by
  constructor
  · intro hDrop
    by_cases hText : ['/', '/'] <:+ text
    · refine .inl ?_
      have hText' : ['/', '/'] <:+ text' := by
        rwa [← endsWithSlash_dropSlash_iff, ← hDrop, endsWithSlash_dropSlash_iff]
      rw [eq_dropSlash_append hText, hDrop, ← eq_dropSlash_append hText']
    · refine .inr ⟨hText, ?_⟩
      rwa [← endsWithSlash_dropSlash_iff, ← hDrop, endsWithSlash_dropSlash_iff]
  · rintro (rfl | ⟨hText, hText'⟩)
    · rfl
    · rw [(dropSlash_eq_trimEnd_iff text).mpr hText, h, (dropSlash_eq_trimEnd_iff text').mpr hText']

/-! ### The base and its endpoints -/

variable {parse : String → Except String Url} {text : String} {url : Url}
  {client : HelloWorldClient}

/-- The base is the parsed URL with its path ending in an empty segment. -/
theorem new_base (hParse : parse text = .ok url)
    (hNew : HelloWorldClient.new parse text = .ok client) :
    client.baseUrl.origin = url.origin ∧ client.baseUrl.query = url.query ∧
      ∃ segments, client.baseUrl.segments = segments ++ [[]] ∧
        pathText segments = dropSlash url.path := by
  obtain ⟨segments, last, hSegments, hPath, hLast⟩ := url.path_last
  simp only [HelloWorldClient.new, hParse, Except.mapError, bind, Except.bind, pure,
    Except.pure] at hNew
  cases hSlash : endsWithSlash url.path with
  | true =>
    rw [hSlash, if_neg (by simp)] at hNew
    obtain rfl := Except.ok.inj hNew
    rw [hPath, endsWithSlash_append _ hLast] at hSlash
    subst hSlash
    rw [hPath, dropSlash_append_slash]
    exact ⟨rfl, rfl, segments, hSegments, rfl⟩
  | false =>
    rw [hSlash, if_pos (by simp), trimEnd_of_not hSlash] at hNew
    obtain rfl := Except.ok.inj hNew
    have hText : url.path ++ "/".toList = pathText (url.segments ++ [[]]) :=
      (pathText_append_single url.segments []).symm
    have hNormal : ∀ segment ∈ url.segments ++ [[]], Normal segment :=
      List.forall_mem_append.mpr ⟨url.normal, by simpa using Normal.nil⟩
    refine ⟨rfl, rfl, url.segments, ?_, ?_⟩
    · rw [hText]
      exact url.setPath_segments (by simp) hNormal
    · rw [dropSlash, hSlash]
      rfl

theorem normal_health : Normal healthPath.text := ⟨healthPath.plain, by decide, by decide⟩

/-- The endpoints' paths: the base path less one trailing slash, with the endpoint behind it. -/
theorem endpoint_paths (hParse : parse text = .ok url)
    (hNew : HelloWorldClient.new parse text = .ok client) :
    (client.endpoint root).path = dropSlash url.path ++ "/".toList ∧
      (client.endpoint healthPath).path = dropSlash url.path ++ "/health".toList := by
  obtain ⟨-, -, segments, hSegments, hText⟩ := new_base hParse hNew
  constructor
  · show pathText client.baseUrl.segments = _
    rw [hSegments, pathText_append_single, hText]
    rfl
  · show pathText (client.baseUrl.join healthPath).segments = _
    rw [Url.join_segments _ (by decide) normal_health, hSegments, List.dropLast_concat,
      pathText_append_single, hText]
    rfl

/-- Two base URLs that differ in trailing slashes and fragments at most. -/
structure SameBase (url url' : Url) : Prop where
  origin : url.origin = url'.origin
  query : url.query = url'.query
  path : trimEnd url.path = trimEnd url'.path

theorem endpoint_asStr (hParse : parse text = .ok url)
    (hNew : HelloWorldClient.new parse text = .ok client) :
    (client.endpoint root).asStr = url.origin.toList ++ (dropSlash url.path ++ "/".toList) ++
        url.query.elim [] (fun query => '?' :: query.toList) ∧
      (client.endpoint healthPath).asStr =
        url.origin.toList ++ (dropSlash url.path ++ "/health".toList) := by
  obtain ⟨hOrigin, hQuery, -⟩ := new_base hParse hNew
  obtain ⟨hRoot, hHealth⟩ := endpoint_paths hParse hNew
  constructor
  · rw [Url.asStr, hRoot]
    show client.baseUrl.origin.toList ++ _ ++ client.baseUrl.query.elim [] _ ++ [] = _
    rw [hOrigin, hQuery, List.append_nil]
  · rw [Url.asStr, hHealth]
    show client.baseUrl.origin.toList ++ _ ++ [] ++ [] = _
    rw [hOrigin, List.append_nil, List.append_nil]

theorem endpoint_asStr_eq_iff {text' : String} {url' : Url} {client' : HelloWorldClient}
    (hParse : parse text = .ok url) (hNew : HelloWorldClient.new parse text = .ok client)
    (hParse' : parse text' = .ok url') (hNew' : HelloWorldClient.new parse text' = .ok client')
    (same : SameBase url url') :
    (client.endpoint root).asStr = (client'.endpoint root).asStr ∧
      (client.endpoint healthPath).asStr = (client'.endpoint healthPath).asStr ↔
      dropSlash url.path = dropSlash url'.path := by
  obtain ⟨hRoot, hHealth⟩ := endpoint_asStr hParse hNew
  obtain ⟨hRoot', hHealth'⟩ := endpoint_asStr hParse' hNew'
  rw [hRoot, hHealth, hRoot', hHealth', same.origin, same.query, List.append_left_inj,
    List.append_right_inj, List.append_right_inj, List.append_left_inj, List.append_left_inj,
    and_self]

theorem isPrefix_dropSlash_append (text : List Char) {behind : List Char}
    (h : behind.head? = some '/') :
    text <+: dropSlash text ++ behind := by
  obtain ⟨behind, rfl⟩ := List.head?_eq_some_iff.mp h
  cases hSlash : endsWithSlash text with
  | false =>
    rw [dropSlash, hSlash]
    exact List.prefix_append _ _
  | true =>
    obtain ⟨before, rfl⟩ := endsWithSlash_iff.mp hSlash
    rw [dropSlash_append_slash]
    exact ⟨behind, List.append_assoc before ['/'] behind⟩

/-- The client requests `P/` and `P/health` for the base path `P` without its trailing slashes
exactly when the path does not end in two.  Two bases that differ in trailing slashes have the same
endpoints exactly when they have the same path or neither ends in two.  No segment of the base is
ever lost. -/
theorem endpoints_iff (hParse : parse text = .ok url)
    (hNew : HelloWorldClient.new parse text = .ok client) {σ : Type}
    (answer : (op : HttpClient.Op) → σ → HttpClient.Reply op × σ) (s : σ) :
    ((client.hello.ops answer s).map Url.path = [trimEnd url.path ++ "/".toList] ∧
      (client.health.ops answer s).map Url.path = [trimEnd url.path ++ "/health".toList] ↔
      ¬"//".toList <:+ url.path) ∧
    (∀ text' url' client', parse text' = .ok url' →
      HelloWorldClient.new parse text' = .ok client' → SameBase url url' →
      ((client.hello.ops answer s).map Url.asStr = (client'.hello.ops answer s).map Url.asStr ∧
        (client.health.ops answer s).map Url.asStr = (client'.health.ops answer s).map Url.asStr ↔
        url.path = url'.path ∨ ¬"//".toList <:+ url.path ∧ ¬"//".toList <:+ url'.path)) ∧
    ∀ request ∈ client.hello.ops answer s ++ client.health.ops answer s,
      url.path <+: request.path := by
  obtain ⟨hRoot, hHealth⟩ := endpoint_paths hParse hNew
  simp only [HelloWorldClient.hello_ops, HelloWorldClient.health_ops, List.map_cons, List.map_nil,
    List.cons.injEq, and_true]
  refine ⟨?_, ?_, ?_⟩
  · rw [hRoot, hHealth, List.append_left_inj, List.append_left_inj, and_self]
    exact dropSlash_eq_trimEnd_iff url.path
  · intro text' url' client' hParse' hNew' same
    rw [endpoint_asStr_eq_iff hParse hNew hParse' hNew' same]
    exact dropSlash_eq_iff same.path
  · simp only [List.singleton_append, List.forall_mem_cons]
    rw [hRoot, hHealth]
    exact ⟨isPrefix_dropSlash_append _ rfl, isPrefix_dropSlash_append _ rfl, by simp⟩

/-! ### A base with two trailing slashes -/

def localhost (path : List Char) : Url :=
  Url.setPath ⟨"http://localhost", [[]], none, none, by simp, by simpa using Normal.nil⟩ path

/-- `Url::parse` on a local base URL of a path only. -/
def parseLocalhost (text : String) : Except String Url :=
  if "http://localhost/".toList.isPrefixOf text.toList then .ok (localhost (text.toList.drop 16))
  else .error "relative URL without a base"

theorem parse_api : parseLocalhost "http://localhost/api" = .ok (localhost "/api".toList) := rfl

theorem new_api : HelloWorldClient.new parseLocalhost "http://localhost/api" =
    .ok ⟨localhost "/api/".toList⟩ := rfl

theorem parse_api_slashes :
    parseLocalhost "http://localhost/api//" = .ok (localhost "/api//".toList) := rfl

theorem new_api_slashes : HelloWorldClient.new parseLocalhost "http://localhost/api//" =
    .ok ⟨localhost "/api//".toList⟩ := rfl

/-- A client's requests when every request fails. -/
def offline : (op : HttpClient.Op) → Unit → HttpClient.Reply op × Unit :=
  fun _ s => (.error ⟨"connection refused", none⟩, s)

theorem endpoints_api :
    (HelloWorldClient.hello ⟨localhost "/api/".toList⟩ |>.ops offline ()).map Url.path =
      ["/api/".toList] :=
  ((endpoints_iff parse_api new_api offline ()).1.mpr (by decide)).1

theorem slashes_kept : ¬∀ (text : String) (url : Url) (client : HelloWorldClient),
    parseLocalhost text = .ok url → HelloWorldClient.new parseLocalhost text = .ok client →
    (client.hello.ops offline ()).map Url.path = [trimEnd url.path ++ "/".toList] ∧
      (client.health.ops offline ()).map Url.path = [trimEnd url.path ++ "/health".toList] := by
  intro h
  obtain ⟨hHello, -⟩ := h _ _ _ parse_api_slashes new_api_slashes
  exact absurd hHello (by decide)

end HelloCounter.Client
