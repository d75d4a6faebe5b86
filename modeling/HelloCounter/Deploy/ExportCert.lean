import HelloCounter.Deploy.RenderInfra

/-! A certificate that `scripts/server/export-caddy-managed-cert.sh` exports and a render script
writes on another host.  What the export writes decodes to the exported bytes, and no later step of
a render script touches the two files of the main pair. -/

namespace HelloCounter.Deploy

/-- The output of `base64 < input | tr -d '\n'`. -/
def writeBase64File (input : Bytes) : Text := (Base64.encodeWrapped input).filter (· != '\n')

/-- `scripts/deploy/render-caddyfile.sh`. -/
def renderCaddyfile (awk : Awk) (env : Env) : Script Unit := do
  let template ← readTemplate "missing Caddy template at " "/caddy/Caddyfile.template"
  let tls ← mainTls env
  writeCaddyfile (template.map fun line => awk.gsub "__TLS_DIRECTIVE__" (awk.assign tls) line)

/-! ### The exported text -/

theorem writeBase64File_eq (input : Bytes) : writeBase64File input = Base64.encode input :=
  Base64.filter_encodeWrapped input

theorem decode_writeBase64File (input : Bytes) :
    Base64.decode (writeBase64File input) = (input, true) := by
  rw [writeBase64File_eq]
  apply Base64.decode_encode

theorem writeBase64File_line (input : Bytes) :
    ∀ c ∈ writeBase64File input, c ≠ '\n' ∧ (c ∈ Base64.alphabet ∨ c = '=') := by
  intro c hc
  rw [writeBase64File_eq] at hc
  have hEncoded := Base64.encode_encoded input c hc
  exact ⟨hEncoded.ne_newline, hEncoded⟩

/-! ### The step for the main pair -/

/-- The main pair's variables hold exported files. -/
structure Exported (env : Env) (cert key : Bytes) : Prop where
  certVar : env "CADDY_TLS_CERT_PEM_B64" = writeBase64File cert
  keyVar : env "CADDY_TLS_KEY_PEM_B64" = writeBase64File key
  cert_ne_nil : cert ≠ []
  key_ne_nil : key ≠ []

variable {env : Env} {cert key : Bytes}

theorem Exported.vars_ne_nil (exported : Exported env cert key) :
    env mainPair.certVar ≠ [] ∧ env mainPair.keyVar ≠ [] := by
  constructor
  · show env "CADDY_TLS_CERT_PEM_B64" ≠ []
    rw [exported.certVar, writeBase64File_eq]
    exact Base64.encode_ne_nil exported.cert_ne_nil
  · show env "CADDY_TLS_KEY_PEM_B64" ≠ []
    rw [exported.keyVar, writeBase64File_eq]
    exact Base64.encode_ne_nil exported.key_ne_nil

theorem Exported.mainTls_run (exported : Exported env cert key) (dir : AppDir) :
    mainTls env dir = .ok mainPair.directive (dir.setPair mainPair (some cert) (some key)) := by
  obtain ⟨hCert, hKey⟩ := exported.vars_ne_nil
  have hComplete : mainPair.complete env = true := by simp [CertPair.complete, hCert, hKey]
  have hCertBytes : Base64.decode (env mainPair.certVar) = (cert, true) := by
    show Base64.decode (env "CADDY_TLS_CERT_PEM_B64") = _
    rw [exported.certVar, decode_writeBase64File]
  have hKeyBytes : Base64.decode (env mainPair.keyVar) = (key, true) := by
    show Base64.decode (env "CADDY_TLS_KEY_PEM_B64") = _
    rw [exported.keyVar, decode_writeBase64File]
  refine mainTls_eq_ok.mpr ⟨by simp [hCert, hKey], CertPair.place_eq_ok.mpr ⟨?_, ?_, ?_⟩⟩
  · exact fun _ => ⟨by rw [hCertBytes], by rw [hKeyBytes]⟩
  · simp only [CertPair.contents, hComplete, if_true, hCertBytes, hKeyBytes]
  · rw [if_pos hComplete]

theorem setPair_mainPair (dir : AppDir) (first second : Option Bytes) :
    (dir.setPair mainPair first second).tls "tls.crt" = first ∧
      (dir.setPair mainPair first second).tls "tls.key" = second := ⟨rfl, rfl⟩

/-! ### Steps that keep a file -/

/-- The directory that a script leaves, when it succeeds and when it fails. -/
def dirAfter {α : Type} : EStateM.Result String AppDir α → AppDir
  | .ok _ dir => dir
  | .error _ dir => dir

/-- The script does not touch the certificate file, even when it fails. -/
def Keeps {α : Type} (file : String) (script : Script α) : Prop :=
  ∀ dir, (dirAfter (script dir)).tls file = dir.tls file

theorem bind_run {α β : Type} {script : Script α} {next : α → Script β} {dir dir' : AppDir} {a : α}
    (h : script dir = .ok a dir') : (script >>= next) dir = next a dir' := by
  show EStateM.bind script next dir = _
  rw [EStateM.bind, h]

theorem Keeps.pure {α : Type} (file : String) (a : α) : Keeps file (pure a : Script α) :=
  fun _ => rfl

theorem Keeps.bind {α β : Type} {file : String} {script : Script α} {next : α → Script β}
    (hScript : Keeps file script) (hNext : ∀ a, Keeps file (next a)) :
    Keeps file (script >>= next) := by
  intro dir
  show (dirAfter (EStateM.bind script next dir)).tls file = _
  unfold EStateM.bind
  have hFirst := hScript dir
  cases hRun : script dir with
  | ok a dir' =>
    rw [hRun] at hFirst
    exact (hNext a dir').trans hFirst
  | error e dir' =>
    rw [hRun] at hFirst
    exact hFirst

variable {file : String}

theorem keeps_decodeTo (value : Text) {file' : String} (h : file ≠ file') :
    Keeps file (decodeTo value file') := by
  intro dir
  have hOther : Function.update dir.tls file' (some (Base64.decode value).1) file = dir.tls file :=
    Function.update_of_ne h _ _
  by_cases hValid : (Base64.decode value).2 = true
  · simpa only [decodeTo, if_pos hValid, dirAfter] using hOther
  · simpa only [decodeTo, if_neg hValid, dirAfter] using hOther

theorem keeps_removeFile {file' : String} (h : file ≠ file') : Keeps file (removeFile file') :=
  fun _ => Function.update_of_ne h _ _

theorem keeps_remove {pair : CertPair} (hCrt : file ≠ pair.crt) (hKey : file ≠ pair.key) :
    Keeps file pair.remove :=
  (keeps_removeFile hCrt).bind fun _ => keeps_removeFile hKey

theorem keeps_place (env : Env) {pair : CertPair} (hCrt : file ≠ pair.crt)
    (hKey : file ≠ pair.key) : Keeps file (pair.place env) := by
  unfold CertPair.place
  split
  · exact (keeps_decodeTo _ hCrt).bind fun _ => (keeps_decodeTo _ hKey).bind fun _ => .pure _ _
  · exact (keeps_remove hCrt hKey).bind fun _ => .pure _ _

theorem keeps_nofeebookingTls (env : Env) (hFile : file ∈ [mainPair.crt, mainPair.key]) :
    Keeps file (nofeebookingTls env) := by
  have apart : ∀ file ∈ [mainPair.crt, mainPair.key], ∀ pair ∈ [nofeebookingPair, wwwPair],
      file ≠ pair.crt ∧ file ≠ pair.key := by decide
  obtain ⟨hCrt, hKey⟩ := apart file hFile nofeebookingPair (by simp)
  obtain ⟨hCrt', hKey'⟩ := apart file hFile wwwPair (by simp)
  unfold nofeebookingTls
  split
  · exact (keeps_remove hCrt hKey).bind fun _ => (keeps_remove hCrt' hKey').bind fun _ => .pure _ _
  · exact (keeps_place env hCrt hKey).bind fun _ =>
      (keeps_place env hCrt' hKey').bind fun _ => .pure _ _

theorem keeps_writeCaddyfile (lines : List Text) : Keeps file (writeCaddyfile lines) :=
  fun _ => rfl

/-! ### The transfer -/

theorem readTemplate_run {dir : AppDir} {template : List Text} (h : dir.template = some template)
    (message path : String) : readTemplate message path dir = .ok template dir := by
  rw [readTemplate, h]

theorem Exported.renderInfra_keeps (exported : Exported env cert key) (awk : Awk) {dir : AppDir}
    {template : List Text} (hTemplate : dir.template = some template)
    (hFile : file ∈ [mainPair.crt, mainPair.key]) :
    (dirAfter (renderInfra awk env dir)).tls file =
      (dir.setPair mainPair (some cert) (some key)).tls file := by
  unfold renderInfra
  rw [bind_run (readTemplate_run hTemplate _ _), bind_run (exported.mainTls_run dir)]
  exact (keeps_nofeebookingTls env hFile).bind (fun _ => keeps_writeCaddyfile _) _

theorem Exported.renderCaddyfile_run (exported : Exported env cert key) (awk : Awk) {dir : AppDir}
    {template : List Text} (hTemplate : dir.template = some template) :
    ∃ lines, renderCaddyfile awk env dir =
      .ok () { dir.setPair mainPair (some cert) (some key) with caddyfile := some lines } := by
  unfold renderCaddyfile
  rw [bind_run (readTemplate_run hTemplate _ _), bind_run (exported.mainTls_run dir)]
  exact ⟨_, rfl⟩

/-- Exported files make the step for the main pair succeed and write exactly the exported bytes; the
infra script keeps them to its end, however it ends; the application's script succeeds with them;
and an exported text is one line over the base64 alphabet. -/
theorem export_render_lossless (exported : Exported env cert key) (awk : Awk) (dir : AppDir) :
    (∃ dir', mainTls env dir = .ok mainPair.directive dir' ∧
      dir'.tls "tls.crt" = some cert ∧ dir'.tls "tls.key" = some key) ∧
    (dir.template ≠ none →
      (dirAfter (renderInfra awk env dir)).tls "tls.crt" = some cert ∧
      (dirAfter (renderInfra awk env dir)).tls "tls.key" = some key ∧
      ∃ dir', renderCaddyfile awk env dir = .ok () dir' ∧
        dir'.tls "tls.crt" = some cert ∧ dir'.tls "tls.key" = some key) ∧
    ∀ bytes ∈ [cert, key], ∀ c ∈ writeBase64File bytes,
      c ≠ '\n' ∧ (c ∈ Base64.alphabet ∨ c = '=') := by
  obtain ⟨hCrt, hKey⟩ := setPair_mainPair dir (some cert) (some key)
  refine ⟨⟨_, exported.mainTls_run dir, hCrt, hKey⟩, ?_, fun bytes _ => writeBase64File_line bytes⟩
  intro hTemplate
  obtain ⟨template, hTemplate⟩ := Option.ne_none_iff_exists'.mp hTemplate
  obtain ⟨lines, run⟩ := exported.renderCaddyfile_run awk hTemplate
  refine ⟨?_, ?_, _, run, hCrt, hKey⟩
  · exact (exported.renderInfra_keeps awk hTemplate (by decide)).trans hCrt
  · exact (exported.renderInfra_keeps awk hTemplate (by decide)).trans hKey

/-- Files of more than one line of base64. -/
def longCert : Bytes := List.replicate 130 97

def longKey : Bytes := List.replicate 58 98

def exportedEnv : Env
  | "CADDY_TLS_CERT_PEM_B64" => writeBase64File longCert
  | "CADDY_TLS_KEY_PEM_B64" => writeBase64File longKey
  | _ => []

def siteDir : AppDir where
  path := "app"
  template := some ["hello-world.prakash.yral.com \x7b".toList, "__TLS_DIRECTIVE__".toList,
    "\x7d".toList]
  caddyfile := none
  tls _ := none

theorem longFiles_lossless : (∃ dir', renderCaddyfile Awk.plain exportedEnv siteDir = .ok () dir' ∧
      dir'.tls "tls.crt" = some longCert ∧ dir'.tls "tls.key" = some longKey) ∧
    (dirAfter (renderInfra Awk.plain exportedEnv siteDir)).tls "tls.crt" = some longCert := by
  have exported : Exported exportedEnv longCert longKey := ⟨rfl, rfl, by decide, by decide⟩
  obtain ⟨-, hScripts, -⟩ := export_render_lossless exported Awk.plain siteDir
  obtain ⟨hInfra, -, hCaddyfile⟩ := hScripts (by decide)
  exact ⟨hCaddyfile, hInfra⟩

end HelloCounter.Deploy
