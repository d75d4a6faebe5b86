import HelloCounter.Application
import HelloCounter.Library.Decimal
import Mathlib

/-! The configuration of `crates/adapter-config-env`.  The pairs are collected in a map, where a
later pair replaces an earlier one with its key, and `from_pairs` reads six keys of the map. -/

namespace HelloCounter.Config

inductive CounterStoreConfig where
  | memory
  | postgres (databaseUrl : String)
deriving DecidableEq

structure AppConfig where
  host : String
  port : UInt16
  serverLabel : String
  greetingMode : GreetingMode
  counterStore : CounterStoreConfig
deriving DecidableEq

/-- A `HashMap<String, String>`, by its `get`. -/
abbrev Values := String → Option String

def collect (pairs : List (String × String)) : Values :=
  pairs.foldl (fun values pair => Function.update values pair.1 (some pair.2)) fun _ => none

/-- `str::parse::<u16>`. -/
def parseU16 (text : String) : Except Decimal.IntErrorKind UInt16 :=
  (Decimal.parse 65535 text.toList).map UInt16.ofNat

namespace Values

variable (values : Values)

def host : String := (values "APP_HOST").getD "127.0.0.1"

def port : Except String UInt16 :=
  match values "APP_PORT" with
  | none => .ok 3000
  | some value => (parseU16 value).mapError fun error => "invalid APP_PORT: " ++ error.message

def greetingMode : Except String GreetingMode :=
  match values "GREETING_MODE" with
  | none => .ok .plain
  | some "plain" => .ok .plain
  | some "counter" => .ok .counter
  | some other => .error ("invalid GREETING_MODE: " ++ other)

def counterStore : Except String CounterStoreConfig :=
  match values "COUNTER_STORE" with
  | none => .ok .memory
  | some "memory" => .ok .memory
  | some "postgres" =>
    match values "DATABASE_URL" with
    | none => .error "DATABASE_URL is required when COUNTER_STORE=postgres"
    | some databaseUrl => .ok (.postgres databaseUrl)
  | some other => .error ("invalid COUNTER_STORE: " ++ other)

def serverLabel : String := (values "SERVER_LABEL").getD "local"

def appConfig : Except String AppConfig := do
  let port ← values.port
  let greetingMode ← values.greetingMode
  let counterStore ← values.counterStore
  return {
    host := values.host, port, serverLabel := values.serverLabel, greetingMode, counterStore }

end Values

def AppConfig.fromPairs (pairs : List (String × String)) : Except String AppConfig :=
  (collect pairs).appConfig

/-- The value of the last pair with the key. -/
def lastValue (key : String) (pairs : List (String × String)) : Option String :=
  pairs.reverse.lookup key

/-- The keys that `from_pairs` reads. -/
def settings : List String :=
  ["APP_HOST", "APP_PORT", "GREETING_MODE", "COUNTER_STORE", "DATABASE_URL", "SERVER_LABEL"]

variable {key : String} {pairs pairs' : List (String × String)}

theorem lastValue_append (key : String) (pairs pairs' : List (String × String)) :
    lastValue key (pairs ++ pairs') = (lastValue key pairs').or (lastValue key pairs) := by
  rw [lastValue, List.reverse_append, List.lookup_append]
  rfl

theorem lastValue_single (key : String) (pair : String × String) :
    lastValue key [pair] = if key = pair.1 then some pair.2 else none := by
  obtain ⟨key', value⟩ := pair
  simp [lastValue]

theorem lastValue_cons (key : String) (pair : String × String)
    (pairs : List (String × String)) : lastValue key (pair :: pairs) =
      (lastValue key pairs).or (if key = pair.1 then some pair.2 else none) := by
  rw [← lastValue_single]
  exact lastValue_append key [pair] pairs

theorem collect_eq (pairs : List (String × String)) (key : String) :
    collect pairs key = lastValue key pairs := by
  induction pairs using List.reverseRecOn with
  | nil => rfl
  | append_singleton pairs pair ih =>
    rw [collect, List.foldl_append, lastValue_append, lastValue_single]
    show Function.update (collect pairs) pair.1 (some pair.2) key = _
    rw [Function.update_apply]
    split
    · rfl
    · rw [ih, Option.none_or]

/-- The configuration depends on the last values of the settings only. -/
theorem fromPairs_congr (h : ∀ key ∈ settings, lastValue key pairs' = lastValue key pairs) :
    AppConfig.fromPairs pairs' = AppConfig.fromPairs pairs := by
  have hKey : ∀ key ∈ settings, collect pairs' key = collect pairs key := by
    intro key hMem
    rw [collect_eq, collect_eq, h key hMem]
  simp only [settings, List.forall_mem_cons, List.not_mem_nil, false_implies, implies_true,
    and_true] at hKey
  obtain ⟨hHost, hPort, hMode, hStore, hUrl, hLabel⟩ := hKey
  simp only [AppConfig.fromPairs, Values.appConfig, Values.host, Values.port, Values.greetingMode,
    Values.counterStore, Values.serverLabel, hHost, hPort, hMode, hStore, hUrl, hLabel]

theorem lastValue_swap {pair pair' : String × String} (hKeys : pair.1 ≠ pair'.1)
    (pairs : List (String × String)) :
    lastValue key (pair :: pair' :: pairs) = lastValue key (pair' :: pair :: pairs) := by
  simp only [lastValue_cons, Option.or_assoc]
  by_cases hKey : key = pair.1
  · rw [if_pos hKey, if_neg (hKey ▸ hKeys), Option.none_or, Option.or_none]
  · rw [if_neg hKey, Option.none_or, Option.or_none]

theorem lastValue_other {pair : String × String} (hKey : key ≠ pair.1)
    (pairs : List (String × String)) : lastValue key (pair :: pairs) = lastValue key pairs := by
  rw [lastValue_cons, if_neg hKey, Option.or_none]

theorem lastValue_perm (hKeys : (pairs.map Prod.fst).Nodup) (hPerm : pairs.Perm pairs') :
    lastValue key pairs' = lastValue key pairs := by
  induction hPerm with
  | nil => rfl
  | cons pair _ ih =>
    rw [lastValue_cons, lastValue_cons, ih (List.nodup_cons.mp hKeys).2]
  | swap pair pair' pairs =>
    have hNe : pair'.1 ≠ pair.1 := fun hEq =>
      (List.nodup_cons.mp hKeys).1 (hEq ▸ List.mem_cons_self)
    exact lastValue_swap hNe.symm pairs
  | trans hPerm _ ih ih' => rw [ih' ((hPerm.map Prod.fst).nodup_iff.mp hKeys), ih hKeys]

theorem fromPairs_swap {pair pair' : String × String} (hKeys : pair.1 ≠ pair'.1)
    (before after : List (String × String)) :
    AppConfig.fromPairs (before ++ pair :: pair' :: after) =
      AppConfig.fromPairs (before ++ pair' :: pair :: after) := by
  apply fromPairs_congr
  intro key _
  rw [lastValue_append, lastValue_append, lastValue_swap hKeys]

theorem fromPairs_perm (hKeys : (pairs.map Prod.fst).Nodup) (hPerm : pairs.Perm pairs') :
    AppConfig.fromPairs pairs' = AppConfig.fromPairs pairs :=
  fromPairs_congr fun _ _ => lastValue_perm hKeys hPerm

theorem fromPairs_other {pair : String × String} (hKey : pair.1 ∉ settings)
    (before after : List (String × String)) :
    AppConfig.fromPairs (before ++ pair :: after) = AppConfig.fromPairs (before ++ after) := by
  apply fromPairs_congr
  intro key hMem
  rw [lastValue_append, lastValue_append, lastValue_other fun hEq => hKey (hEq ▸ hMem)]

/-! ### Acceptance -/

/-- An optional plus sign and one or more digits with the value of the port. -/
def IsPort (text : String) (port : UInt16) : Prop := Decimal.IsNumber text.toList port.toNat

theorem parseU16_eq_ok_iff {text : String} {port : UInt16} :
    parseU16 text = .ok port ↔ IsPort text port := by
  have hMax : port.toNat ≤ 65535 := Nat.le_of_lt_succ port.toNat_lt
  constructor
  · intro h
    unfold parseU16 at h
    cases hParse : Decimal.parse 65535 text.toList with
    | error error => rw [hParse] at h; cases h
    | ok n =>
      rw [hParse] at h
      obtain rfl := Except.ok.inj h
      obtain ⟨hNumber, hLe⟩ := Decimal.parse_eq_ok_iff.mp hParse
      rwa [IsPort, UInt16.toNat_ofNat_of_lt' (Nat.lt_succ_of_le hLe)]
  · intro hNumber
    rw [parseU16, Decimal.parse_eq_ok_iff.mpr ⟨hNumber, hMax⟩]
    exact congrArg Except.ok UInt16.ofNat_toNat

/-- The last values that `from_pairs` accepts. -/
structure Accepted (pairs : List (String × String)) : Prop where
  port : ∀ text, lastValue "APP_PORT" pairs = some text →
    ∃ n ≤ 65535, Decimal.IsNumber text.toList n
  greetingMode : lastValue "GREETING_MODE" pairs ∈ [none, some "plain", some "counter"]
  counterStore : lastValue "COUNTER_STORE" pairs ∈ [none, some "memory", some "postgres"]
  databaseUrl : lastValue "COUNTER_STORE" pairs = some "postgres" →
    lastValue "DATABASE_URL" pairs ≠ none

/-- Every field is the value given or its default. -/
structure Configured (pairs : List (String × String)) (config : AppConfig) : Prop where
  host : config.host = (lastValue "APP_HOST" pairs).getD "127.0.0.1"
  port : ∀ text, lastValue "APP_PORT" pairs = some text → IsPort text config.port
  defaultPort : lastValue "APP_PORT" pairs = none → config.port = 3000
  serverLabel : config.serverLabel = (lastValue "SERVER_LABEL" pairs).getD "local"
  greetingMode : config.greetingMode =
    if lastValue "GREETING_MODE" pairs = some "counter" then .counter else .plain
  postgres : lastValue "COUNTER_STORE" pairs = some "postgres" →
    ∃ url, lastValue "DATABASE_URL" pairs = some url ∧ config.counterStore = .postgres url
  memory : lastValue "COUNTER_STORE" pairs ≠ some "postgres" → config.counterStore = .memory

/-- The message names the setting. -/
def Names (message key : String) : Prop := key.toList <:+: message.toList

theorem names_append (before key after rest : String) :
    Names (before ++ key ++ after ++ rest) key := by
  simp only [Names, String.toList_append]
  exact ⟨before.toList, after.toList ++ rest.toList, (List.append_assoc ..).symm⟩

namespace Values

variable {values : Values}

theorem port_eq_ok_iff {port : UInt16} :
    values.port = .ok port ↔ values "APP_PORT" = none ∧ port = 3000 ∨
      ∃ text, values "APP_PORT" = some text ∧ IsPort text port := by
  unfold Values.port
  cases values "APP_PORT" with
  | none => simp [eq_comm]
  | some text =>
    have hMapError : ∀ result : Except Decimal.IntErrorKind UInt16,
        (result.mapError fun error => "invalid APP_PORT: " ++ error.message) = .ok port ↔
          result = .ok port := by
      rintro (error | port')
      · simp [Except.mapError]
      · simp [Except.mapError]
    rw [hMapError, parseU16_eq_ok_iff]
    simp

theorem greetingMode_eq_ok_iff {mode : GreetingMode} :
    values.greetingMode = .ok mode ↔
      values "GREETING_MODE" ∈ [none, some "plain", some "counter"] ∧
        mode = if values "GREETING_MODE" = some "counter" then .counter else .plain := by
  unfold Values.greetingMode
  split <;> simp_all [eq_comm]

theorem counterStore_eq_ok_iff {store : CounterStoreConfig} :
    values.counterStore = .ok store ↔
      values "COUNTER_STORE" ∈ [none, some "memory"] ∧ store = .memory ∨
        values "COUNTER_STORE" = some "postgres" ∧
          ∃ url, values "DATABASE_URL" = some url ∧ store = .postgres url := by
  unfold Values.counterStore
  split <;> simp_all [eq_comm]
  cases values "DATABASE_URL" <;> simp [eq_comm]

theorem appConfig_eq_ok_iff {config : AppConfig} :
    values.appConfig = .ok config ↔ values.port = .ok config.port ∧
      values.greetingMode = .ok config.greetingMode ∧
      values.counterStore = .ok config.counterStore ∧
      config.host = values.host ∧ config.serverLabel = values.serverLabel := by
  obtain ⟨host, port, serverLabel, greetingMode, counterStore⟩ := config
  rw [Values.appConfig]
  cases values.port with
  | error error => simp [bind, Except.bind]
  | ok port' =>
    cases values.greetingMode with
    | error error => simp [bind, Except.bind]
    | ok greetingMode' =>
      cases values.counterStore with
      | error error => simp [bind, Except.bind]
      | ok counterStore' =>
        simp only [bind, Except.bind, pure, Except.pure, Except.ok.injEq, AppConfig.mk.injEq]
        tauto

theorem port_error {message : String} (h : values.port = .error message) :
    Names message "APP_PORT" := by
  unfold Values.port at h
  cases hText : values "APP_PORT" with
  | none => rw [hText] at h; cases h
  | some text =>
    simp only [hText] at h
    cases hParse : parseU16 text with
    | ok port => rw [hParse] at h; cases h
    | error error =>
      rw [hParse] at h
      have hMessage : message = "invalid " ++ "APP_PORT" ++ ": " ++ error.message :=
        (Except.error.inj h).symm
      rw [hMessage]
      exact names_append "invalid " "APP_PORT" ": " error.message

theorem greetingMode_error {message : String} (h : values.greetingMode = .error message) :
    Names message "GREETING_MODE" := by
  unfold Values.greetingMode at h
  split at h <;> try cases h
  exact names_append "invalid " "GREETING_MODE" ": " _

theorem counterStore_error {message : String} (h : values.counterStore = .error message) :
    Names message "COUNTER_STORE" := by
  unfold Values.counterStore at h
  split at h <;> try cases h
  · split at h
    · obtain rfl := Except.error.inj h
      exact ⟨"DATABASE_URL is required when ".toList, "=postgres".toList, rfl⟩
    · cases h
  · exact names_append "invalid " "COUNTER_STORE" ": " _

theorem exists_port_iff : (∃ port, values.port = .ok port) ↔
    ∀ text, values "APP_PORT" = some text → ∃ n ≤ 65535, Decimal.IsNumber text.toList n := by
  simp only [port_eq_ok_iff]
  cases values "APP_PORT" with
  | none => exact iff_of_true ⟨3000, .inl ⟨rfl, rfl⟩⟩ nofun
  | some text =>
    constructor
    · rintro ⟨port, ⟨hNone, -⟩ | ⟨_, ⟨⟩, hPort⟩⟩ text ⟨⟩
      · cases hNone
      · exact ⟨port.toNat, Nat.le_of_lt_succ port.toNat_lt, hPort⟩
    · intro h
      obtain ⟨n, hLe, hNumber⟩ := h text rfl
      refine ⟨UInt16.ofNat n, .inr ⟨text, rfl, ?_⟩⟩
      rwa [IsPort, UInt16.toNat_ofNat_of_lt' (Nat.lt_succ_of_le hLe)]

theorem exists_greetingMode_iff : (∃ mode, values.greetingMode = .ok mode) ↔
    values "GREETING_MODE" ∈ [none, some "plain", some "counter"] := by
  simp only [greetingMode_eq_ok_iff]
  exact ⟨fun ⟨_, hMode, _⟩ => hMode, fun hMode => ⟨_, hMode, rfl⟩⟩

theorem exists_counterStore_iff : (∃ store, values.counterStore = .ok store) ↔
    values "COUNTER_STORE" ∈ [none, some "memory", some "postgres"] ∧
      (values "COUNTER_STORE" = some "postgres" → values "DATABASE_URL" ≠ none) := by
  simp only [counterStore_eq_ok_iff, List.mem_cons, List.not_mem_nil, or_false]
  constructor
  · rintro ⟨store, ⟨hOther, -⟩ | ⟨hPostgres, url, hUrl, -⟩⟩
    · refine ⟨by tauto, fun hPostgres => ?_⟩
      rw [hPostgres] at hOther
      simp at hOther
    · exact ⟨.inr (.inr hPostgres), fun _ hNone => by rw [hNone] at hUrl; cases hUrl⟩
  · rintro ⟨hNone | hMemory | hPostgres, hUrl⟩
    · exact ⟨.memory, .inl ⟨.inl hNone, rfl⟩⟩
    · exact ⟨.memory, .inl ⟨.inr hMemory, rfl⟩⟩
    · obtain ⟨url, hUrl⟩ := Option.ne_none_iff_exists'.mp (hUrl hPostgres)
      exact ⟨.postgres url, .inr ⟨hPostgres, url, hUrl, rfl⟩⟩

theorem exists_appConfig_iff : (∃ config, values.appConfig = .ok config) ↔
    (∃ port, values.port = .ok port) ∧ (∃ mode, values.greetingMode = .ok mode) ∧
      ∃ store, values.counterStore = .ok store := by
  simp only [appConfig_eq_ok_iff]
  constructor
  · rintro ⟨config, hPort, hMode, hStore, -⟩
    exact ⟨⟨_, hPort⟩, ⟨_, hMode⟩, _, hStore⟩
  · rintro ⟨⟨port, hPort⟩, ⟨greetingMode, hMode⟩, counterStore, hStore⟩
    exact ⟨⟨values.host, port, values.serverLabel, greetingMode, counterStore⟩, hPort, hMode,
      hStore, rfl, rfl⟩

end Values

/-- An error names the first setting that is not accepted. -/
theorem fromPairs_error {message : String} (h : AppConfig.fromPairs pairs = .error message) :
    (collect pairs).port = .error message ∧ Names message "APP_PORT" ∨
    (∃ port, (collect pairs).port = .ok port) ∧ ((collect pairs).greetingMode = .error message ∧
      Names message "GREETING_MODE" ∨
    (∃ mode, (collect pairs).greetingMode = .ok mode) ∧
      (collect pairs).counterStore = .error message ∧ Names message "COUNTER_STORE") := by
  rw [AppConfig.fromPairs, Values.appConfig] at h
  cases hPort : (collect pairs).port with
  | error error =>
    rw [hPort] at h
    obtain rfl := Except.error.inj h
    exact .inl ⟨rfl, Values.port_error hPort⟩
  | ok port =>
    refine .inr ⟨⟨port, rfl⟩, ?_⟩
    cases hMode : (collect pairs).greetingMode with
    | error error =>
      rw [hPort, hMode] at h
      obtain rfl := Except.error.inj h
      exact .inl ⟨rfl, Values.greetingMode_error hMode⟩
    | ok mode =>
      refine .inr ⟨⟨mode, rfl⟩, ?_⟩
      cases hStore : (collect pairs).counterStore with
      | error error =>
        rw [hPort, hMode, hStore] at h
        obtain rfl := Except.error.inj h
        exact ⟨rfl, Values.counterStore_error hStore⟩
      | ok store =>
        rw [hPort, hMode, hStore] at h
        cases h

theorem fromPairs_configured {config : AppConfig} (h : AppConfig.fromPairs pairs = .ok config) :
    Configured pairs config := by
  obtain ⟨hPort, hMode, hStore, hHost, hLabel⟩ := Values.appConfig_eq_ok_iff.mp h
  rw [Values.port_eq_ok_iff, collect_eq] at hPort
  rw [Values.greetingMode_eq_ok_iff, collect_eq] at hMode
  rw [Values.counterStore_eq_ok_iff, collect_eq, collect_eq] at hStore
  refine ⟨?_, ?_, ?_, ?_, hMode.2, ?_, ?_⟩
  · rw [hHost, Values.host, collect_eq]
  · intro text hText
    rcases hPort with ⟨hNone, -⟩ | ⟨text', hSome, hPort⟩
    · rw [hNone] at hText
      cases hText
    · obtain rfl := Option.some.inj (hSome.symm.trans hText)
      exact hPort
  · intro hNone
    rcases hPort with ⟨-, hPort⟩ | ⟨text', hSome, -⟩
    · exact hPort
    · rw [hNone] at hSome
      cases hSome
  · rw [hLabel, Values.serverLabel, collect_eq]
  · intro hPostgres
    rcases hStore with ⟨hMem, -⟩ | ⟨-, hUrl⟩
    · rw [hPostgres] at hMem
      simp at hMem
    · exact hUrl
  · intro hOther
    rcases hStore with ⟨-, hMemory⟩ | ⟨hPostgres, -⟩
    · exact hMemory
    · exact absurd hPostgres hOther

theorem fromPairs_ok_iff : (∃ config, AppConfig.fromPairs pairs = .ok config) ↔ Accepted pairs := by
  simp only [AppConfig.fromPairs, Values.exists_appConfig_iff, Values.exists_port_iff,
    Values.exists_greetingMode_iff, Values.exists_counterStore_iff, collect_eq]
  exact ⟨fun ⟨hPort, hMode, hStore, hUrl⟩ => ⟨hPort, hMode, hStore, hUrl⟩,
    fun h => ⟨h.port, h.greetingMode, h.counterStore, h.databaseUrl⟩⟩

/-- `from_pairs` depends on the last value of each setting only, so not on the order of pairs with
distinct keys and not on other keys; it accepts exactly the documented settings, and what it returns
is what was given or the default. -/
theorem fromPairs_spec (pairs : List (String × String)) :
    (∀ pairs', (∀ key ∈ settings, lastValue key pairs' = lastValue key pairs) →
      AppConfig.fromPairs pairs' = AppConfig.fromPairs pairs) ∧
    (∀ before pair pair' after, pairs = before ++ pair :: pair' :: after → pair.1 ≠ pair'.1 →
      AppConfig.fromPairs (before ++ pair' :: pair :: after) = AppConfig.fromPairs pairs) ∧
    (∀ pairs', (pairs.map Prod.fst).Nodup → pairs.Perm pairs' →
      AppConfig.fromPairs pairs' = AppConfig.fromPairs pairs) ∧
    (∀ before pair after, pairs = before ++ after → pair.1 ∉ settings →
      AppConfig.fromPairs (before ++ pair :: after) = AppConfig.fromPairs pairs) ∧
    ((∃ config, AppConfig.fromPairs pairs = .ok config) ↔ Accepted pairs) ∧
    ∀ config, AppConfig.fromPairs pairs = .ok config → Configured pairs config := by
  refine ⟨fun pairs' h => fromPairs_congr h, ?_, fun pairs' => fromPairs_perm, ?_,
    fromPairs_ok_iff, fun config => fromPairs_configured⟩
  · rintro before pair pair' after rfl hKeys
    exact (fromPairs_swap hKeys before after).symm
  · rintro before pair after rfl hKey
    exact fromPairs_other hKey before after

end HelloCounter.Config
