import HelloCounter.Deploy.Awk
import HelloCounter.Deploy.CertPairs

/-! `scripts/deploy/render-infra-caddyfile.sh`: the certificate pairs, and the awk program that
selects the sections of a host's roles and fills in the placeholders. -/

namespace HelloCounter.Deploy

/-- `${name:-default}`. -/
def Env.getD (env : Env) (name default : String) : Text :=
  if env name = [] then default.toList else env name

def sourceHost (env : Env) : Bool := env.getD "NOFEEBOOKING_TLS_SOURCE_HOST" "false" = "true".toList

def nofeebookingTls (env : Env) : Script (Text × Text) :=
  if sourceHost env then do
    nofeebookingPair.remove
    wwwPair.remove
    return ([], [])
  else do
    let nofeebooking ← nofeebookingPair.place env
    let www ← wwwPair.place env
    return (nofeebooking, www)

structure Vars where
  tlsDirective : Text
  nofeebookingTlsDirective : Text
  nofeebookingWwwTlsDirective : Text
  sentryEnabled : Text
  sentryServerIp : Text
  nofeebookingEnabled : Text
  nofeebookingTlsSourceHost : Text
  nofeebookingServerIp : Text
  nofeebookingBackend2 : Text
  nofeebookingBackend3 : Text
  storjEnabled : Text
  storjServerIp : Text

def Vars.ofEnv (awk : Awk) (env : Env) (tls nofeebooking www : Text) : Vars where
  tlsDirective := awk.assign tls
  nofeebookingTlsDirective := awk.assign nofeebooking
  nofeebookingWwwTlsDirective := awk.assign www
  sentryEnabled := awk.assign (env.getD "SENTRY_ENABLED" "false")
  sentryServerIp := awk.assign (env.getD "SENTRY_SERVER_IP" "94.130.13.115")
  nofeebookingEnabled := awk.assign (env.getD "NOFEEBOOKING_ENABLED" "false")
  nofeebookingTlsSourceHost := awk.assign (env.getD "NOFEEBOOKING_TLS_SOURCE_HOST" "false")
  nofeebookingServerIp := awk.assign (env.getD "NOFEEBOOKING_SERVER_IP" "94.130.13.115")
  nofeebookingBackend2 := awk.assign (env.getD "NOFEEBOOKING_BACKEND_2" "88.99.151.102")
  nofeebookingBackend3 := awk.assign (env.getD "NOFEEBOOKING_BACKEND_3" "138.201.129.173")
  storjEnabled := awk.assign (env.getD "STORJ_ENABLED" "false")
  storjServerIp := awk.assign (env.getD "STORJ_SERVER_IP" "94.130.13.115")

def isTrue (value : Text) : Bool := value = "true".toList

/-- The marker patterns in the program's order, each with the value that it gives `skip`. -/
def Vars.rules (vars : Vars) : List (String × Bool) :=
  [("__SENTRY_BLOCK_START__", !isTrue vars.sentryEnabled),
    ("__SENTRY_BLOCK_END__", false),
    ("__SENTRY_PROXY_START__", isTrue vars.sentryEnabled),
    ("__SENTRY_PROXY_END__", false),
    ("__NOFEEBOOKING_BLOCK_START__",
      !isTrue vars.nofeebookingEnabled || !isTrue vars.nofeebookingTlsSourceHost),
    ("__NOFEEBOOKING_BLOCK_END__", false),
    ("__NOFEEBOOKING_STATIC_START__",
      !isTrue vars.nofeebookingEnabled || isTrue vars.nofeebookingTlsSourceHost),
    ("__NOFEEBOOKING_STATIC_END__", false),
    ("__NOFEEBOOKING_PROXY_START__", isTrue vars.nofeebookingEnabled),
    ("__NOFEEBOOKING_PROXY_END__", false),
    ("__STORJ_BLOCK_START__", !isTrue vars.storjEnabled),
    ("__STORJ_BLOCK_END__", false),
    ("__STORJ_PROXY_START__", isTrue vars.storjEnabled),
    ("__STORJ_PROXY_END__", false)]

/-- The placeholders in the order of the `gsub` calls, each with its value. -/
def Vars.substitutions (vars : Vars) : List (String × Text) :=
  [("__TLS_DIRECTIVE__", vars.tlsDirective),
    ("__NOFEEBOOKING_TLS_DIRECTIVE__", vars.nofeebookingTlsDirective),
    ("__NOFEEBOOKING_WWW_TLS_DIRECTIVE__", vars.nofeebookingWwwTlsDirective),
    ("__SENTRY_SERVER_IP__", vars.sentryServerIp),
    ("__NOFEEBOOKING_SERVER_IP__", vars.nofeebookingServerIp),
    ("__NOFEEBOOKING_BACKEND_2__", vars.nofeebookingBackend2),
    ("__NOFEEBOOKING_BACKEND_3__", vars.nofeebookingBackend3),
    ("__STORJ_SERVER_IP__", vars.storjServerIp)]

def substitute (awk : Awk) (vars : Vars) (line : Text) : Text :=
  vars.substitutions.foldl (fun line gsub => awk.gsub gsub.1 gsub.2 line) line

/-- One record: the new value of `skip`, and the line that is printed. -/
def record (awk : Awk) (vars : Vars) (skip : Bool) (line : Text) : Bool × Option Text :=
  match vars.rules.find? fun rule => Awk.isMatch rule.1 line with
  | some rule => (rule.2, none)
  | none => (skip, if skip then none else some (substitute awk vars line))

def renderLines (awk : Awk) (vars : Vars) : (skip : Bool) → List Text → List Text
  | _, [] => []
  | skip, line :: lines =>
    (record awk vars skip line).2.toList ++ renderLines awk vars (record awk vars skip line).1 lines

def readTemplate (message file : String) : Script (List Text) := fun dir =>
  match dir.template with
  | some lines => .ok lines dir
  | none => .error (message ++ dir.path ++ file) dir

def writeCaddyfile (lines : List Text) : Script Unit :=
  modify fun dir => { dir with caddyfile := some lines }

def renderInfra (awk : Awk) (env : Env) : Script Unit := do
  let template ← readTemplate "missing Caddyfile template at " "/Caddyfile.template"
  let tls ← mainTls env
  let nofeebooking ← nofeebookingTls env
  let vars := Vars.ofEnv awk env tls nofeebooking.1 nofeebooking.2
  writeCaddyfile (renderLines awk vars false template)

/-! ### The files after a run -/

/-- The host uses the pair, and both its halves are set. -/
def configured (env : Env) (pair : CertPair) : Bool :=
  pair.complete env && (pair = mainPair || !sourceHost env)

/-- The pair's directive when the host uses it, and nothing otherwise. -/
def directive (env : Env) (pair : CertPair) : Text :=
  if configured env pair then pair.directive else []

/-- The contents that a run leaves in a file of the pair. -/
def contents (env : Env) (pair : CertPair) (var : String) : Option Bytes :=
  if configured env pair then some (Base64.decode (env var)).1 else none

/-- The values of the pair decode when the host uses it. -/
def Decodable (env : Env) (pair : CertPair) : Prop :=
  configured env pair = true → (Base64.decode (env pair.certVar)).2 = true ∧
    (Base64.decode (env pair.keyVar)).2 = true

def AppDir.place (dir : AppDir) (env : Env) (pair : CertPair) : AppDir :=
  dir.setPair pair (contents env pair pair.certVar) (contents env pair pair.keyVar)

theorem contents_isSome {env : Env} {pair : CertPair} (h : configured env pair = true)
    (var : String) : (contents env pair var).isSome = true := by
  rw [contents, if_pos h]
  rfl

theorem configured_mainPair (env : Env) : configured env mainPair = mainPair.complete env := by
  simp [configured]

theorem configured_other (env : Env) {pair : CertPair} (h : pair ≠ mainPair) :
    configured env pair = (pair.complete env && !sourceHost env) := by
  simp [configured, h]

theorem nofeebookingTls_eq_ok {env : Env} {dir dir' : AppDir} {directives : Text × Text}
    (h : nofeebookingTls env dir = .ok directives dir') :
    dir' = (dir.place env nofeebookingPair).place env wwwPair ∧
      directives = (directive env nofeebookingPair, directive env wwwPair) ∧
      Decodable env nofeebookingPair ∧ Decodable env wwwPair := by
  have hNofeebooking := configured_other env (show nofeebookingPair ≠ mainPair by decide)
  have hWww := configured_other env (show wwwPair ≠ mainPair by decide)
  unfold nofeebookingTls at h
  by_cases hSource : sourceHost env = true
  · rw [if_pos hSource] at h
    simp only [hSource, Bool.not_true, Bool.and_false] at hNofeebooking hWww
    simp only [AppDir.place, contents, directive, Decodable, hNofeebooking, hWww]
    cases h
    refine ⟨rfl, rfl, ?_, ?_⟩
    · exact fun h => absurd h (by decide)
    · exact fun h => absurd h (by decide)
  · rw [if_neg hSource, bind_eq_ok] at h
    obtain ⟨nofeebooking, dir1, hFirst, hRest⟩ := h
    obtain ⟨www, dir2, hSecond, hReturn⟩ := bind_eq_ok.mp hRest
    obtain ⟨hValid, rfl, rfl⟩ := CertPair.place_eq_ok.mp hFirst
    obtain ⟨hValid', rfl, rfl⟩ := CertPair.place_eq_ok.mp hSecond
    cases hReturn
    simp only [hSource, Bool.not_false, Bool.and_true] at hNofeebooking hWww
    simp only [AppDir.place, contents, directive, Decodable, hNofeebooking, hWww,
      CertPair.contents]
    exact ⟨trivial, trivial, hValid, hValid'⟩

/-- What a run that succeeds leaves: the files of the three pairs, and the rendered lines. -/
theorem renderInfra_eq_ok {awk : Awk} {env : Env} {dir dir' : AppDir}
    (h : renderInfra awk env dir = .ok () dir') :
    ∃ template, dir.template = some template ∧
      dir' = { ((dir.place env mainPair).place env nofeebookingPair).place env wwwPair with
        caddyfile := some (renderLines awk (Vars.ofEnv awk env (directive env mainPair)
          (directive env nofeebookingPair) (directive env wwwPair)) false template) } ∧
      Decodable env mainPair ∧ Decodable env nofeebookingPair ∧ Decodable env wwwPair := by
  obtain ⟨template, dir1, hTemplate, h⟩ := bind_eq_ok.mp h
  obtain ⟨tls, dir2, hMain, h⟩ := bind_eq_ok.mp h
  obtain ⟨directives, dir3, hNofeebooking, hWrite⟩ := bind_eq_ok.mp h
  have hRead : dir.template = some template ∧ dir1 = dir := by
    unfold readTemplate at hTemplate
    split at hTemplate
    · next lines hLines => cases hTemplate; exact ⟨hLines, rfl⟩
    · cases hTemplate
  obtain ⟨hLines, rfl⟩ := hRead
  obtain ⟨-, hPlace⟩ := mainTls_eq_ok.mp hMain
  obtain ⟨hValid, rfl, rfl⟩ := CertPair.place_eq_ok.mp hPlace
  obtain ⟨rfl, rfl, hDecodable⟩ := nofeebookingTls_eq_ok hNofeebooking
  cases hWrite
  rw [← configured_mainPair] at hValid
  refine ⟨template, hLines, ?_, hValid, hDecodable⟩
  simp only [AppDir.place, contents, directive, CertPair.contents, configured_mainPair]

end HelloCounter.Deploy
