import HelloCounter.Library.Base64

/-! The certificate pairs of the two render scripts.  A script runs on the files of its directory
under `set -euo pipefail`: it stops at the first command that fails, and the files stay as that
command left them. -/

namespace HelloCounter.Deploy

abbrev Text := List Char

abbrev Bytes := List UInt8

/-- The value of each environment variable, empty when it is unset. -/
abbrev Env := String → Text

/-- The template, the rendered file, and the files under `runtime/tls`. -/
structure AppDir where
  path : String
  template : Option (List Text)
  caddyfile : Option (List Text)
  tls : String → Option Bytes

abbrev Script (α : Type) := EStateM String AppDir α

def fail {α : Type} (message : String) : Script α := throw message

/-- `printf '%s' value | base64 --decode > file`: what is decoded is written, also before an
error. -/
def decodeTo (value : Text) (file : String) : Script Unit := fun dir =>
  let decoded := Base64.decode value
  let dir := { dir with tls := Function.update dir.tls file (some decoded.1) }
  if decoded.2 then .ok () dir else .error "base64: invalid input" dir

/-- `rm -f file`. -/
def removeFile (file : String) : Script Unit :=
  modify fun dir => { dir with tls := Function.update dir.tls file none }

structure CertPair where
  name : String
  certVar : String
  keyVar : String
deriving DecidableEq

namespace CertPair

def crt (pair : CertPair) : String := pair.name ++ ".crt"

def key (pair : CertPair) : String := pair.name ++ ".key"

def directive (pair : CertPair) : Text :=
  ("    tls /etc/caddy/tls/" ++ pair.crt ++ " /etc/caddy/tls/" ++ pair.key).toList

def complete (env : Env) (pair : CertPair) : Bool := env pair.certVar ≠ [] && env pair.keyVar ≠ []

def remove (pair : CertPair) : Script Unit := do
  removeFile pair.crt
  removeFile pair.key

/-- Write the pair's files and return its directive, or remove them and return nothing. -/
def place (env : Env) (pair : CertPair) : Script Text :=
  if pair.complete env then do
    decodeTo (env pair.certVar) pair.crt
    decodeTo (env pair.keyVar) pair.key
    return pair.directive
  else do
    pair.remove
    return []

end CertPair

def mainPair : CertPair := ⟨"tls", "CADDY_TLS_CERT_PEM_B64", "CADDY_TLS_KEY_PEM_B64"⟩

def nofeebookingPair : CertPair :=
  ⟨"nofeebooking", "NOFEEBOOKING_TLS_CERT_PEM_B64", "NOFEEBOOKING_TLS_KEY_PEM_B64"⟩

def wwwPair : CertPair :=
  ⟨"nofeebooking-www", "NOFEEBOOKING_WWW_TLS_CERT_PEM_B64", "NOFEEBOOKING_WWW_TLS_KEY_PEM_B64"⟩

def checkMainPair (env : Env) : Script Unit := do
  if env mainPair.certVar ≠ [] && env mainPair.keyVar = [] then
    fail "CADDY_TLS_KEY_PEM_B64 must be set when CADDY_TLS_CERT_PEM_B64 is provided"
  if env mainPair.keyVar ≠ [] && env mainPair.certVar = [] then
    fail "CADDY_TLS_CERT_PEM_B64 must be set when CADDY_TLS_KEY_PEM_B64 is provided"

/-- The step for the main pair, the same in both scripts. -/
def mainTls (env : Env) : Script Text := do
  checkMainPair env
  mainPair.place env

/-! ### What the steps do to the files -/

theorem bind_eq_ok {α β : Type} {script : Script α} {next : α → Script β} {dir dir'' : AppDir}
    {b : β} : (script >>= next) dir = .ok b dir'' ↔
      ∃ a dir', script dir = .ok a dir' ∧ next a dir' = .ok b dir'' := by
  show (EStateM.bind script next) dir = .ok b dir'' ↔ _
  unfold EStateM.bind
  cases script dir with
  | ok a dir' => simp
  | error e dir' => simp

@[simp] theorem pure_eq_ok {α : Type} {a b : α} {dir dir' : AppDir} :
    (pure a : Script α) dir = .ok b dir' ↔ b = a ∧ dir' = dir := by
  show EStateM.Result.ok a dir = .ok b dir' ↔ _
  rw [EStateM.Result.ok.injEq]
  exact and_congr eq_comm eq_comm

@[simp] theorem fail_ne_ok {α : Type} {message : String} {a : α} {dir dir' : AppDir} :
    fail message dir ≠ .ok a dir' := fun h => nomatch h

theorem decodeTo_eq_ok {value : Text} {file : String} {dir dir' : AppDir} :
    decodeTo value file dir = .ok () dir' ↔ (Base64.decode value).2 = true ∧
      dir' = { dir with tls := Function.update dir.tls file (some (Base64.decode value).1) } := by
  unfold decodeTo
  by_cases h : (Base64.decode value).2 = true
  · simp [h, eq_comm]
  · simp [h]

/-- What a run leaves in the pair's files: the decoded values, or nothing. -/
def CertPair.contents (env : Env) (pair : CertPair) (var : String) : Option Bytes :=
  if pair.complete env then some (Base64.decode (env var)).1 else none

def AppDir.setPair (dir : AppDir) (pair : CertPair) (cert key : Option Bytes) : AppDir :=
  { dir with tls := Function.update (Function.update dir.tls pair.crt cert) pair.key key }

theorem CertPair.remove_run (pair : CertPair) (dir : AppDir) :
    pair.remove dir = .ok () (dir.setPair pair none none) := rfl

theorem CertPair.place_eq_ok {env : Env} {pair : CertPair} {dir dir' : AppDir} {directive : Text} :
    pair.place env dir = .ok directive dir' ↔
      (pair.complete env = true → (Base64.decode (env pair.certVar)).2 = true ∧
        (Base64.decode (env pair.keyVar)).2 = true) ∧
      dir' = dir.setPair pair (pair.contents env pair.certVar) (pair.contents env pair.keyVar) ∧
      directive = if pair.complete env then pair.directive else [] := by
  unfold place contents
  by_cases h : pair.complete env = true
  · rw [if_pos h, if_pos h, if_pos h, if_pos h, bind_eq_ok]
    constructor
    · rintro ⟨⟨⟩, dir1, hFirst, hRest⟩
      obtain ⟨⟨⟩, dir2, hSecond, hReturn⟩ := bind_eq_ok.mp hRest
      obtain ⟨hCert, rfl⟩ := decodeTo_eq_ok.mp hFirst
      obtain ⟨hKey, rfl⟩ := decodeTo_eq_ok.mp hSecond
      cases hReturn
      exact ⟨fun _ => ⟨hCert, hKey⟩, rfl, rfl⟩
    · rintro ⟨hValid, rfl, rfl⟩
      obtain ⟨hCert, hKey⟩ := hValid h
      refine ⟨(), _, decodeTo_eq_ok.mpr ⟨hCert, rfl⟩, bind_eq_ok.mpr ?_⟩
      exact ⟨(), _, decodeTo_eq_ok.mpr ⟨hKey, rfl⟩, rfl⟩
  · rw [if_neg h, if_neg h, if_neg h, if_neg h, bind_eq_ok]
    constructor
    · rintro ⟨⟨⟩, dir1, hRemove, hReturn⟩
      rw [pair.remove_run] at hRemove
      cases hRemove
      cases hReturn
      exact ⟨fun hComplete => absurd hComplete h, rfl, rfl⟩
    · rintro ⟨-, rfl, rfl⟩
      exact ⟨(), _, pair.remove_run dir, rfl⟩

theorem checkMainPair_eq_ok {env : Env} {dir dir' : AppDir} :
    checkMainPair env dir = .ok () dir' ↔
      (env mainPair.certVar = [] ↔ env mainPair.keyVar = []) ∧ dir' = dir := by
  unfold checkMainPair
  by_cases hCert : env mainPair.certVar = [] <;> by_cases hKey : env mainPair.keyVar = [] <;>
    simp [hCert, hKey]

theorem mainTls_eq_ok {env : Env} {dir dir' : AppDir} {directive : Text} :
    mainTls env dir = .ok directive dir' ↔
      (env mainPair.certVar = [] ↔ env mainPair.keyVar = []) ∧
        mainPair.place env dir = .ok directive dir' := by
  unfold mainTls
  rw [bind_eq_ok]
  constructor
  · rintro ⟨⟨⟩, dir1, hCheck, hPlace⟩
    obtain ⟨hBoth, rfl⟩ := checkMainPair_eq_ok.mp hCheck
    exact ⟨hBoth, hPlace⟩
  · rintro ⟨hBoth, hPlace⟩
    exact ⟨(), dir, checkMainPair_eq_ok.mpr ⟨hBoth, rfl⟩, hPlace⟩

end HelloCounter.Deploy
