import HelloCounter.Config.AppConfig
import HelloCounter.Http.PageViews
import HelloCounter.Library.SocketAddr

/-! What `crates/bin-server` makes of a configuration.  The label and the host are free text in
`from_pairs`; the router needs a header value and the listener a socket address. -/

namespace HelloCounter.Config

open Effect Net

/-- `format!("{}:{}", config.host, config.port).parse()`. -/
def AppConfig.address (config : AppConfig) : Option SocketAddr :=
  SocketAddr.parse (config.host ++ ":" ++ toString config.port)

inductive Startup (E : Interface) where
  | panicked (message : String)
  | failed (message : String)
  | listening (app : Http.Router E) (address : SocketAddr)

/-- `main` from the service on, up to the call of `bind`. -/
def startUp {E : Interface} (config : AppConfig) (service : HelloWorldService E) : Startup E :=
  match Http.buildRouter service config.serverLabel with
  | none => .panicked "SERVER_LABEL must be a valid header"
  | some app =>
    match config.address with
    | none => .failed "invalid socket address syntax"
    | some address => .listening app address

/-- The label is absent or a header value. -/
def LabelServable (pairs : List (String × String)) : Prop :=
  ∀ label, lastValue "SERVER_LABEL" pairs = some label → ∀ c ∈ label.toList, Http.visible c = true

/-- The host is absent, an IPv4 address, or an IPv6 address in brackets. -/
def HostServable (pairs : List (String × String)) : Prop :=
  ∀ host, lastValue "APP_HOST" pairs = some host → Parser.IsHost host.toList

variable {E : Interface} {pairs : List (String × String)} {config : AppConfig}

theorem buildRouter_isSome_iff (service : HelloWorldService E) (label : String) :
    (∃ app, Http.buildRouter service label = some app) ↔
      ∀ c ∈ label.toList, Http.visible c = true := by
  rw [← List.all_eq_true, Http.buildRouter, Http.HeaderValue.fromStr]
  split <;> simp_all

theorem isHost_default : Parser.IsHost "127.0.0.1".toList := by
  refine .inl ⟨['1', '2', '7'], ['0'], ['0'], ['1'], rfl, ?_, ?_, ?_, ?_⟩
  all_goals
    unfold Parser.IsOctet
    decide

/-- An accepted configuration is served exactly when its label, if given, is a header value and its
host, if given, is an address: `from_pairs` checks neither. -/
theorem servable_iff (h : AppConfig.fromPairs pairs = .ok config) (service : HelloWorldService E) :
    ((∃ app, Http.buildRouter service config.serverLabel = some app) ∧
      ∃ address, SocketAddr.parse (config.host ++ ":" ++ toString config.port) = some address) ↔
      LabelServable pairs ∧ HostServable pairs := by
  have configured := fromPairs_configured h
  rw [buildRouter_isSome_iff, Parser.parse_toString_iff]
  apply and_congr
  · rw [configured.serverLabel, LabelServable]
    cases lastValue "SERVER_LABEL" pairs with
    | none => exact iff_of_true (List.all_eq_true.mp rfl) nofun
    | some label => simp
  · rw [configured.host, HostServable]
    cases lastValue "APP_HOST" pairs with
    | none => exact iff_of_true isHost_default nofun
    | some host => simp

theorem startUp_listening_iff (h : AppConfig.fromPairs pairs = .ok config)
    (service : HelloWorldService E) :
    (∃ app address, startUp config service = .listening app address) ↔
      LabelServable pairs ∧ HostServable pairs := by
  rw [← servable_iff h service, startUp, AppConfig.address]
  cases Http.buildRouter service config.serverLabel with
  | none => simp
  | some app =>
    cases SocketAddr.parse (config.host ++ ":" ++ toString config.port) with
    | none => simp
    | some address => simp

/-! ### A label with a newline -/

def defaults : AppConfig := ⟨"127.0.0.1", 3000, "local", .plain, .memory⟩

def loopbackPairs : List (String × String) :=
  [("SERVER_LABEL", "server 1"), ("APP_HOST", "[::1]")]

theorem fromPairs_loopback : AppConfig.fromPairs loopbackPairs =
    .ok { defaults with host := "[::1]", serverLabel := "server 1" } := rfl

theorem fromPairs_newline : AppConfig.fromPairs [("SERVER_LABEL", "server\n1")] =
    .ok { defaults with serverLabel := "server\n1" } := rfl

theorem servable_loopback :
    (∃ app, Http.buildRouter (Http.memoryService .plain) "server 1" = some app) ∧
      ∃ address, SocketAddr.parse ("[::1]" ++ ":" ++ toString defaults.port) = some address := by
  refine (servable_iff fromPairs_loopback (Http.memoryService .plain)).mpr ⟨?_, ?_⟩
  · rintro label ⟨⟩
    exact List.all_eq_true.mp rfl
  · rintro host ⟨⟩
    have isGroup : Parser.IsGroup ['1'] := by
      unfold Parser.IsGroup
      decide
    have isIpv6 : Parser.IsIpv6 "::1".toList :=
      .inr ⟨[], ['1'], 0, 1, false, rfl, by decide, .inl ⟨rfl, rfl⟩, .inr (.group isGroup)⟩
    exact .inr ⟨"::1".toList, [], rfl, isIpv6, .inl rfl⟩

/-- `from_pairs` accepts a label that makes `build_router` panic. -/
theorem accepted_not_servable : ¬∀ (pairs : List (String × String)) (config : AppConfig),
    AppConfig.fromPairs pairs = .ok config →
    (∃ app, Http.buildRouter (Http.memoryService .plain) config.serverLabel = some app) ∧
      ∃ address, SocketAddr.parse (config.host ++ ":" ++ toString config.port) = some address := by
  intro h
  obtain ⟨⟨app, hApp⟩, -⟩ := h _ _ fromPairs_newline
  cases hApp

end HelloCounter.Config
