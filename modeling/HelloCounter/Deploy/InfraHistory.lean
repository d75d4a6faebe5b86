import HelloCounter.Deploy.InfraDeploy
import HelloCounter.Deploy.RenderFailure
import HelloCounter.Deploy.TlsFiles
import HelloCounter.Library.Rollout

/-! Histories of the infra deploy on the three hosts.  A run may end at any command on any host, and
what it leaves half written stays there; a run that completes a host leaves exactly what its own
template and secrets say, whatever earlier runs did. -/

namespace HelloCounter.Deploy

/-! ### Runs of the script that end anywhere -/

/-- The steps may end before any of them and while any of them writes its file. -/
inductive Torn : AppDir → List FileStep → AppDir → Prop
  | ended {dir : AppDir} {steps : List FileStep} : Torn dir steps dir
  | torn {dir : AppDir} {step : FileStep} {steps : List FileStep} {bytes : Bytes} :
    Torn dir (step :: steps) { dir with tls := Function.update dir.tls step.file (some bytes) }
  | step {dir dir' : AppDir} {step : FileStep} {steps : List FileStep} (valid : step.valid = true)
    (rest : Torn (step.apply dir) steps dir') : Torn dir (step :: steps) dir'

/-- What a call of `deploy-infra.sh` may leave, and whether it succeeds. -/
inductive ScriptEnds (awk : Awk) (env : Env) : AppDir → Bool → AppDir → Prop
  | success {dir dir' : AppDir} (render : renderInfra awk env dir = .ok () dir') :
    ScriptEnds awk env dir true dir'
  | failure {dir dir' : AppDir} {message : String}
    (render : renderInfra awk env dir = .error message dir') : ScriptEnds awk env dir false dir'
  | composeFails {dir dir' : AppDir} (render : renderInfra awk env dir = .ok () dir') :
    ScriptEnds awk env dir false dir'
  | killed {dir dir' : AppDir} (torn : Torn dir (fileSteps env) dir') :
    ScriptEnds awk env dir false dir'
  | killedWriting {dir dir' : AppDir} (steps : runSteps (fileSteps env) dir = .ok () dir')
    (lines : List Text) : ScriptEnds awk env dir false { dir' with caddyfile := some lines }

/-! ### The workflow -/

/-- What one run of the workflow deploys: the template of its commit, and the secrets as they were
when its job started. -/
structure Release where
  template : List Text
  secrets : Env

/-- The command on a host to which the template has been copied, with some run of the script. -/
def Visited (awk : Awk) (login : Text → Env) (ok : Bool) (release : Release) (nodeIp : Text)
    (dir dir' : AppDir) : Prop :=
  ∃ (script : Env → AppDir → Bool × AppDir) (home : Text) (session : Shell.Session),
    (∀ env dir, ScriptEnds awk env dir (script env dir).1 (script env dir).2) ∧
    Shell.run (infraHost script) (infraCommand release.secrets nodeIp) ⟨login nodeIp, home⟩
      { dir with template := some release.template } = some (ok, session, dir')

/-- The steps for one host: the copies, of which one may end on the way, and the command. -/
def infraVisit (awk : Awk) (login : Text → Env) : Rollout.Visit Text AppDir Release where
  completes := Visited awk login true
  stops release nodeIp dir dir' :=
    (∃ template, dir' = { dir with template := template }) ∨
      Visited awk login false release nodeIp dir dir'

/-! ### What a host serves -/

/-- The variables that the script reads. -/
def renderVars : List String :=
  ["CADDY_TLS_CERT_PEM_B64", "CADDY_TLS_KEY_PEM_B64", "NOFEEBOOKING_TLS_CERT_PEM_B64",
    "NOFEEBOOKING_TLS_KEY_PEM_B64", "NOFEEBOOKING_WWW_TLS_CERT_PEM_B64",
    "NOFEEBOOKING_WWW_TLS_KEY_PEM_B64", "SENTRY_ENABLED", "SENTRY_SERVER_IP",
    "NOFEEBOOKING_ENABLED", "NOFEEBOOKING_TLS_SOURCE_HOST", "NOFEEBOOKING_SERVER_IP",
    "NOFEEBOOKING_BACKEND_2", "NOFEEBOOKING_BACKEND_3", "STORJ_ENABLED", "STORJ_SERVER_IP"]

def SameVars (env env' : Env) : Prop := ∀ name ∈ renderVars, env name = env' name

/-- The variables of the host's role and secrets, with nothing else set. -/
def roleEnv (secrets : Env) (nodeIp : Text) : Env := nodeEnv (fun _ => []) secrets nodeIp

/-- The host's files are those of the release, for the host's role. -/
structure Served (awk : Awk) (release : Release) (nodeIp : Text) (dir : AppDir) : Prop where
  template : dir.template = some release.template
  caddyfile : dir.caddyfile = some (renderLines awk
    (runVars awk (roleEnv release.secrets nodeIp)) false release.template)
  files : ∀ pair ∈ pairs,
    dir.tls pair.crt = contents (roleEnv release.secrets nodeIp) pair pair.certVar ∧
      dir.tls pair.key = contents (roleEnv release.secrets nodeIp) pair pair.keyVar

/-- The files of the three pairs. -/
def certFiles : List String := pairs.flatMap fun pair => [pair.crt, pair.key]

/-- The two hosts hold the same files. -/
def SameFiles (dir dir' : AppDir) : Prop :=
  dir.template = dir'.template ∧ dir.caddyfile = dir'.caddyfile ∧
    ∀ file ∈ certFiles, dir.tls file = dir'.tls file

/-- Every certificate path in the host's Caddyfile is that of a file that the host has, and on the
first server none is that of a nofeebooking pair. -/
def NamesFiles (nodeIp : Text) (dir : AppDir) : Prop :=
  ∃ lines, dir.caddyfile = some lines ∧
    (∀ line ∈ lines, ∀ before after, line = before ++ (tlsPath ++ after) →
      ∃ pair ∈ pairs, InDirective pair before after ∧ (dir.tls pair.crt).isSome = true ∧
        (dir.tls pair.key).isSome = true) ∧
    (nodeIp = server1Ip → ∀ line ∈ lines, ¬nofeebookingPath <:+: line)

variable {awk : Awk} {env env' : Env} {dir dir' : AppDir}

/-! ### The variables that count -/

theorem SameVars.pair (same : SameVars env env') {pair : CertPair} (hPair : pair ∈ pairs) :
    env pair.certVar = env' pair.certVar ∧ env pair.keyVar = env' pair.keyVar := by
  have hVars : ∀ pair ∈ pairs, pair.certVar ∈ renderVars ∧ pair.keyVar ∈ renderVars := by decide
  exact ⟨same _ (hVars pair hPair).1, same _ (hVars pair hPair).2⟩

theorem SameVars.getD (same : SameVars env env') {name : String} (h : name ∈ renderVars)
    (default : String) : env.getD name default = env'.getD name default := by
  rw [Env.getD, Env.getD, same name h]

theorem SameVars.configured (same : SameVars env env') {pair : CertPair} (hPair : pair ∈ pairs) :
    configured env pair = configured env' pair := by
  have hSource : sourceHost env = sourceHost env' := by
    rw [sourceHost, sourceHost, same.getD (by decide)]
  rw [Deploy.configured, Deploy.configured, hSource, CertPair.complete, CertPair.complete,
    (same.pair hPair).1, (same.pair hPair).2]

theorem SameVars.contents (same : SameVars env env') {pair : CertPair} (hPair : pair ∈ pairs) :
    contents env pair pair.certVar = contents env' pair pair.certVar ∧
      contents env pair pair.keyVar = contents env' pair pair.keyVar := by
  simp only [Deploy.contents, same.configured hPair, same.pair hPair, and_self]

theorem SameVars.directive (same : SameVars env env') {pair : CertPair} (hPair : pair ∈ pairs) :
    directive env pair = directive env' pair := by
  rw [Deploy.directive, Deploy.directive, same.configured hPair]

/-- The rendered lines depend on these variables only. -/
theorem SameVars.runVars (same : SameVars env env') (awk : Awk) :
    runVars awk env = runVars awk env' := by
  have hMain := same.directive (show mainPair ∈ pairs by decide)
  have hNofeebooking := same.directive (show nofeebookingPair ∈ pairs by decide)
  have hWww := same.directive (show wwwPair ∈ pairs by decide)
  rw [Deploy.runVars, Deploy.runVars, hMain, hNofeebooking, hWww]
  simp only [Vars.ofEnv, Vars.mk.injEq, true_and]
  exact ⟨by rw [same.getD (by decide)], by rw [same.getD (by decide)],
    by rw [same.getD (by decide)], by rw [same.getD (by decide)], by rw [same.getD (by decide)],
    by rw [same.getD (by decide)], by rw [same.getD (by decide)], by rw [same.getD (by decide)],
    by rw [same.getD (by decide)]⟩

/-- The login's own variables do not count when it sets no `SENTRY_SERVER_IP`, the only variable of
the script that the command leaves alone. -/
theorem nodeEnv_sameVars {login : Env} (unset : login "SENTRY_SERVER_IP" = []) (secrets : Env)
    (nodeIp : Text) : SameVars (nodeEnv login secrets nodeIp) (roleEnv secrets nodeIp) := by
  have hNames : ∀ name ∈ renderVars, name ≠ "SENTRY_SERVER_IP" →
      name ∈ (infraExports (fun _ => []) []).map Prod.fst := by decide
  have hSentry : "SENTRY_SERVER_IP" ∉ (infraExports (fun _ => []) []).map Prod.fst := by decide
  intro name hName
  unfold roleEnv nodeEnv
  by_cases hEq : name = "SENTRY_SERVER_IP"
  · subst hEq
    rw [← exports_names secrets nodeIp] at hSentry
    rw [Shell.assign_of_not_mem hSentry, Shell.assign_of_not_mem hSentry, unset]
  · have hExported := hNames name hName hEq
    rw [← exports_names secrets nodeIp] at hExported
    obtain ⟨assignment, hMem, rfl⟩ := List.mem_map.mp hExported
    rw [Shell.assign_of_mem (exports_nodup secrets nodeIp) hMem,
      Shell.assign_of_mem (exports_nodup secrets nodeIp) hMem]

/-- The hosts other than the first have one role. -/
theorem roleEnv_others (secrets : Env) {nodeIp nodeIp' : Text} (h : nodeIp ≠ server1Ip)
    (h' : nodeIp' ≠ server1Ip) : roleEnv secrets nodeIp = roleEnv secrets nodeIp' := by
  unfold roleEnv nodeEnv infraExports
  simp only [h, h']

theorem roleEnv_value {secrets : Env} {nodeIp : Text} {name : String} {value : Text}
    (h : (name, value) ∈ infraExports secrets nodeIp) : roleEnv secrets nodeIp name = value :=
  Shell.assign_of_mem (exports_nodup secrets nodeIp) h _

/-- The flags of a host's role. -/
theorem roleEnv_flags (secrets : Env) (nodeIp : Text) :
    roleEnv secrets nodeIp "SENTRY_ENABLED" = boolText (nodeIp = server1Ip) ∧
      roleEnv secrets nodeIp "NOFEEBOOKING_ENABLED" = boolText true ∧
      roleEnv secrets nodeIp "NOFEEBOOKING_TLS_SOURCE_HOST" = boolText (nodeIp = server1Ip) ∧
      roleEnv secrets nodeIp "STORJ_ENABLED" = boolText (nodeIp = server1Ip) :=
  ⟨roleEnv_value (by simp [infraExports]), roleEnv_value (by simp [infraExports, boolText]),
    roleEnv_value (by simp [infraExports]), roleEnv_value (by simp [infraExports])⟩

/-- The server addresses of every role. -/
theorem roleEnv_servers (secrets : Env) (nodeIp : Text) :
    roleEnv secrets nodeIp "SENTRY_SERVER_IP" = [] ∧
      roleEnv secrets nodeIp "NOFEEBOOKING_SERVER_IP" = server1Ip ∧
      roleEnv secrets nodeIp "NOFEEBOOKING_BACKEND_2" = server2Ip ∧
      roleEnv secrets nodeIp "NOFEEBOOKING_BACKEND_3" = server3Ip ∧
      roleEnv secrets nodeIp "STORJ_SERVER_IP" = server1Ip := by
  have hSentry : "SENTRY_SERVER_IP" ∉ (infraExports (fun _ => []) []).map Prod.fst := by decide
  rw [← exports_names secrets nodeIp] at hSentry
  exact ⟨Shell.assign_of_not_mem hSentry _, roleEnv_value (by simp [infraExports]),
    roleEnv_value (by simp [infraExports]), roleEnv_value (by simp [infraExports]),
    roleEnv_value (by simp [infraExports])⟩

theorem roleEnv_source (secrets : Env) (nodeIp : Text) :
    sourceHost (roleEnv secrets nodeIp) = true ↔ nodeIp = server1Ip := by
  unfold sourceHost Env.getD
  rw [(roleEnv_flags secrets nodeIp).2.2.1]
  by_cases h : nodeIp = server1Ip
  · simp [h, boolText]
  · simp [h, boolText]

/-! ### One visit -/

theorem Visited.ends {login : Text → Env} {ok : Bool} {release : Release} {nodeIp : Text}
    (noQuotes : NoQuotes release.secrets) (visited : Visited awk login ok release nodeIp dir dir') :
    ScriptEnds awk (nodeEnv (login nodeIp) release.secrets nodeIp)
      { dir with template := some release.template } ok dir' := by
  obtain ⟨script, home, session, ends, run⟩ := visited
  obtain ⟨session', hRun⟩ := infraCommand_runs noQuotes nodeIp home script (login nodeIp)
    { dir with template := some release.template }
  rw [hRun] at run
  cases run
  exact ends _ _

/-- A call of the script that nothing interrupts. -/
theorem deployInfra_ends (awk : Awk) (composeUp : Bool) (env : Env) (dir : AppDir) :
    ScriptEnds awk env dir (deployInfra awk composeUp env dir).1
      (deployInfra awk composeUp env dir).2 := by
  unfold deployInfra
  cases hRender : renderInfra awk env dir with
  | error message dir' => exact .failure hRender
  | ok value dir' =>
    cases composeUp with
    | false => exact .composeFails hRender
    | true => exact .success hRender

/-- A render that succeeds leaves the files of the release. -/
theorem served_of_render {release : Release} {nodeIp : Text}
    (same : SameVars env (roleEnv release.secrets nodeIp))
    (hTemplate : dir.template = some release.template)
    (render : renderInfra awk env dir = .ok () dir') : Served awk release nodeIp dir' := by
  refine ⟨?_, ?_, ?_⟩
  · obtain ⟨template, -, rfl, -⟩ := renderInfra_eq_ok render
    exact hTemplate
  · rw [renderInfra_lines hTemplate render, same.runVars]
  · intro pair hPair
    obtain ⟨hCrt, hKey, -⟩ := renderInfra_files render hPair
    rw [hCrt, hKey]
    exact same.contents hPair

theorem fileSteps_files (env : Env) : (fileSteps env).map FileStep.file = certFiles := by
  have hPair : ∀ pair, (pairSteps env pair).map FileStep.file = [pair.crt, pair.key] := by
    intro pair
    unfold pairSteps
    split <;> rfl
  rw [fileSteps, List.map_append, List.map_append, hPair, hPair, hPair]
  rfl

theorem Torn.frame {steps : List FileStep} {file : String} (torn : Torn dir steps dir')
    (h : file ∉ steps.map FileStep.file) : dir'.tls file = dir.tls file := by
  induction torn with
  | ended => rfl
  | torn => exact Function.update_of_ne (List.ne_of_not_mem_cons h) _ _
  | step valid rest ih =>
    exact (ih (List.not_mem_of_not_mem_cons h)).trans
      (Function.update_of_ne (List.ne_of_not_mem_cons h) _ _)

/-- However the script ends, it touches no other file under `runtime/tls`. -/
theorem ScriptEnds.frame {ok : Bool} {file : String} (ends : ScriptEnds awk env dir ok dir')
    (h : file ∉ certFiles) : dir'.tls file = dir.tls file := by
  rw [← fileSteps_files env] at h
  have hSteps := runSteps_keeps h dir
  have hRender : (dirAfter (renderInfra awk env dir)).tls file = dir.tls file := by
    rcases renderInfra_tls awk env dir with hTls | hTls
    · rw [hTls]
    · rw [hTls, hSteps]
  cases ends with
  | success render | failure render | composeFails render => rwa [render] at hRender
  | killed torn => exact torn.frame h
  | killedWriting steps lines => rwa [steps] at hSteps

/-! ### Runs that nothing interrupts -/

/-- The main pair is complete or absent, and every value decodes. -/
structure UsableSecrets (secrets : Env) : Prop where
  main : secrets mainPair.certVar = [] ↔ secrets mainPair.keyVar = []
  decode : ∀ pair ∈ pairs, (Base64.decode (secrets pair.certVar)).2 = true ∧
    (Base64.decode (secrets pair.keyVar)).2 = true

theorem nodeEnv_pair (login secrets : Env) (nodeIp : Text) {pair : CertPair}
    (hPair : pair ∈ pairs) : nodeEnv login secrets nodeIp pair.certVar = secrets pair.certVar ∧
      nodeEnv login secrets nodeIp pair.keyVar = secrets pair.keyVar := by
  have hVars : ∀ pair ∈ pairs,
      (pair.certVar, secrets pair.certVar) ∈ infraExports secrets nodeIp ∧
        (pair.keyVar, secrets pair.keyVar) ∈ infraExports secrets nodeIp := by
    simp [pairs, infraExports, mainPair, nofeebookingPair, wwwPair]
  exact ⟨Shell.assign_of_mem (exports_nodup secrets nodeIp) (hVars pair hPair).1 login,
    Shell.assign_of_mem (exports_nodup secrets nodeIp) (hVars pair hPair).2 login⟩

theorem renderInfra_succeeds (awk : Awk) {template : List Text} (halfSet : ¬HalfSet env mainPair)
    (decode : ∀ pair ∈ pairs, (Base64.decode (env pair.certVar)).2 = true ∧
      (Base64.decode (env pair.keyVar)).2 = true) (hTemplate : dir.template = some template) :
    ∃ dir', renderInfra awk env dir = .ok () dir' := by
  have hPair : ∀ pair ∈ pairs, ∀ step ∈ pairSteps env pair, step.valid = true := by
    intro pair hPair step hStep
    unfold pairSteps at hStep
    split at hStep
    · simp only [List.mem_cons, List.not_mem_nil, or_false] at hStep
      rcases hStep with rfl | rfl
      · exact (decode pair hPair).1
      · exact (decode pair hPair).2
    · simp only [List.mem_cons, List.not_mem_nil, or_false] at hStep
      rcases hStep with rfl | rfl <;> rfl
  have hValid : ∀ step ∈ fileSteps env, step.valid = true := by
    intro step hStep
    rw [fileSteps, List.mem_append, List.mem_append] at hStep
    rcases hStep with (hStep | hStep) | hStep
    · exact hPair _ (by decide) step hStep
    · exact hPair _ (by decide) step hStep
    · exact hPair _ (by decide) step hStep
  rcases renderInfra_cases awk env dir with ⟨hFails, -⟩ | ⟨-, lines, hRun⟩
  · exact absurd hFails (by simp [hTemplate, halfSet])
  · obtain ⟨dir', hSteps, -⟩ := runSteps_valid (fileSteps_distinct env) hValid dir
    rw [hRun, bind_run hSteps]
    exact ⟨_, rfl⟩

/-- Nothing that a host holds keeps a run with usable secrets from completing it. -/
theorem visit_completes (awk : Awk) (login : Text → Env) {release : Release}
    (noQuotes : NoQuotes release.secrets) (usable : UsableSecrets release.secrets) (nodeIp : Text)
    (dir : AppDir) : ∃ dir', (infraVisit awk login).completes release nodeIp dir dir' := by
  have hVars : ∀ pair ∈ pairs, _ := fun _ hPair =>
    nodeEnv_pair (login nodeIp) release.secrets nodeIp hPair
  have halfSet : ¬HalfSet (nodeEnv (login nodeIp) release.secrets nodeIp) mainPair := by
    obtain ⟨hCert, hKey⟩ := hVars mainPair (by decide)
    rw [HalfSet, hCert, hKey, not_not]
    exact usable.main
  have hTemplate : ({ dir with template := some release.template } : AppDir).template =
      some release.template := rfl
  obtain ⟨dir', hRender⟩ := renderInfra_succeeds awk halfSet (fun pair hPair => by
    rw [(hVars pair hPair).1, (hVars pair hPair).2]
    exact usable.decode pair hPair) hTemplate
  obtain ⟨session, hRun⟩ := infraCommand_runs noQuotes nodeIp [] (deployInfra awk true)
    (login nodeIp) { dir with template := some release.template }
  rw [deployInfra, hRender] at hRun
  exact ⟨dir', deployInfra awk true, [], session, deployInfra_ends awk true, hRun⟩

theorem run_completes (awk : Awk) (login : Text → Env) {release : Release}
    (noQuotes : NoQuotes release.secrets) (usable : UsableSecrets release.secrets) (n : Nat)
    (hosts : List Text) (fleet : Rollout.Fleet Text AppDir) :
    ∃ fleet', Rollout.Run (infraVisit awk login) n release hosts fleet fleet' true := by
  induction hosts generalizing fleet with
  | nil => exact ⟨fleet, .done fleet⟩
  | cons nodeIp hosts ih =>
    obtain ⟨dir', hVisit⟩ := visit_completes awk login noQuotes usable nodeIp (fleet.state nodeIp)
    obtain ⟨fleet', hRun⟩ := ih (fleet.visit nodeIp dir' (.complete n))
    exact ⟨fleet', .next hVisit hRun⟩

/-! ### The hosts at any time -/

theorem served_of_visit {login : Text → Env} {release : Release} {nodeIp : Text}
    (unset : login nodeIp "SENTRY_SERVER_IP" = []) (noQuotes : NoQuotes release.secrets)
    (visited : Visited awk login true release nodeIp dir dir') :
    Served awk release nodeIp dir' := by
  cases visited.ends noQuotes with
  | success render =>
    exact served_of_render (nodeEnv_sameVars unset release.secrets nodeIp) rfl render

theorem Served.names {release : Release} {nodeIp : Text} (served : Served awk release nodeIp dir)
    (free : PathFree awk (roleEnv release.secrets nodeIp) release.template) :
    NamesFiles nodeIp dir := by
  refine ⟨_, served.caddyfile, ?_, ?_⟩
  · intro line hLine before after hPath
    obtain ⟨pair, hPair, hConfigured, hInside⟩ := path_in_directive free hLine hPath
    obtain ⟨hCrt, hKey⟩ := served.files pair hPair
    refine ⟨pair, hPair, hInside, ?_, ?_⟩
    · rw [hCrt]
      exact contents_isSome hConfigured _
    · rw [hKey]
      exact contents_isSome hConfigured _
  · intro hFirst line hLine
    exact source_path free ((roleEnv_source _ _).mpr hFirst) hLine

theorem Served.same {release : Release} {nodeIp nodeIp' : Text} (h : nodeIp ≠ server1Ip)
    (h' : nodeIp' ≠ server1Ip) (served : Served awk release nodeIp dir)
    (served' : Served awk release nodeIp' dir') : SameFiles dir dir' := by
  have hRole := roleEnv_others release.secrets h h'
  refine ⟨served.template.trans served'.template.symm, ?_, ?_⟩
  · rw [served.caddyfile, served'.caddyfile, hRole]
  · intro file hFile
    obtain ⟨pair, hPair, hMem⟩ := List.mem_flatMap.mp hFile
    obtain ⟨hCrt, hKey⟩ := served.files pair hPair
    obtain ⟨hCrt', hKey'⟩ := served'.files pair hPair
    simp only [List.mem_cons, List.not_mem_nil, or_false] at hMem
    rcases hMem with rfl | rfl
    · rw [hCrt, hCrt', hRole]
    · rw [hKey, hKey', hRole]

/-- At any time of any history of infra deploys: the hosts are completed in their order; a host that
a run has completed and none has visited since holds the files of that run's release for its role,
and its Caddyfile names existing certificate files only, unless the template names others itself;
the second and the third server hold the same files when the same run has completed them; no other
file is ever touched; and the next run with usable secrets completes every host unless it is
interrupted. -/
theorem infra_history {login : Text → Env}
    (unset : ∀ nodeIp, login nodeIp "SENTRY_SERVER_IP" = []) {releases : List Release}
    (noQuotes : ∀ release ∈ releases, NoQuotes release.secrets)
    {start : Text → AppDir} {fleet : Rollout.Fleet Text AppDir}
    (history : Rollout.History (infraVisit awk login) nodeIps start releases fleet) :
    nodeIps.Pairwise (Rollout.Ahead fleet) ∧
    (∀ nodeIp n, fleet.mark nodeIp = .complete n → ∃ release, releases[n]? = some release ∧
      Served awk release nodeIp (fleet.state nodeIp) ∧
      (PathFree awk (roleEnv release.secrets nodeIp) release.template →
        NamesFiles nodeIp (fleet.state nodeIp))) ∧
    (∀ n, fleet.mark server2Ip = .complete n → fleet.mark server3Ip = .complete n →
      SameFiles (fleet.state server2Ip) (fleet.state server3Ip)) ∧
    (∀ nodeIp, ∀ file ∉ certFiles, (fleet.state nodeIp).tls file = (start nodeIp).tls file) ∧
    ∀ release, NoQuotes release.secrets → UsableSecrets release.secrets →
      ∃ fleet', Rollout.Run (infraVisit awk login) releases.length release nodeIps fleet fleet'
        true ∧ ∀ nodeIp ∈ nodeIps, fleet'.mark nodeIp = .complete releases.length := by
  have nodup : nodeIps.Nodup := by decide
  have served : ∀ {nodeIp n}, fleet.mark nodeIp = .complete n → ∃ release,
      releases[n]? = some release ∧ Served awk release nodeIp (fleet.state nodeIp) :=
    history.complete nodup fun release hRelease nodeIp dir dir' visit =>
      served_of_visit (unset nodeIp) (noQuotes release hRelease) visit
  refine ⟨history.ordered nodup, ?_, ?_, ?_, ?_⟩
  · intro nodeIp n hMark
    obtain ⟨release, hRelease, hServed⟩ := served hMark
    exact ⟨release, hRelease, hServed, hServed.names⟩
  · intro n hSecond hThird
    obtain ⟨release, hRelease, hServed⟩ := served hSecond
    obtain ⟨release', hRelease', hServed'⟩ := served hThird
    obtain rfl := Option.some.inj (hRelease.symm.trans hRelease')
    exact hServed.same (by decide) (by decide) hServed'
  · intro nodeIp file hFile
    have keeps : ∀ {release nodeIp dir dir' ok}, release ∈ releases →
        Visited awk login ok release nodeIp dir dir' → dir'.tls file = dir.tls file :=
      fun hRelease visited => (visited.ends (noQuotes _ hRelease)).frame hFile
    refine history.invariant nodup (fun host dir => dir.tls file = (start host).tls file)
      (fun _ => rfl) ?_ ?_ nodeIp
    · exact fun release hRelease host s s' visited hFrame =>
        (keeps hRelease visited).trans hFrame
    · rintro release hRelease host s s' (⟨template, rfl⟩ | visited) hFrame
      · exact hFrame
      · exact (keeps hRelease visited).trans hFrame
  · intro release hQuotes usable
    obtain ⟨fleet', hRun⟩ := run_completes awk login hQuotes usable releases.length nodeIps fleet
    exact ⟨fleet', hRun, hRun.reaches nodup rfl⟩

/-! ### An interrupted run -/

/-- A release with a certificate for the main pair. -/
def firstRelease : Release where
  template := slotLines
  secrets
    | "CADDY_TLS_CERT_PEM_B64" => "YQ==".toList
    | "CADDY_TLS_KEY_PEM_B64" => "Yg==".toList
    | _ => []

/-- A release with a renewed certificate. -/
def secondRelease : Release where
  template := slotLines
  secrets
    | "CADDY_TLS_CERT_PEM_B64" => "Yw==".toList
    | "CADDY_TLS_KEY_PEM_B64" => "ZA==".toList
    | _ => []

theorem releases_ready : ∀ release ∈ [firstRelease, secondRelease],
    NoQuotes release.secrets ∧ UsableSecrets release.secrets := by
  intro release h
  simp only [List.mem_cons, List.not_mem_nil, or_false] at h
  rcases h with rfl | rfl
  · exact ⟨by unfold NoQuotes; decide, by decide, by decide⟩
  · exact ⟨by unfold NoQuotes; decide, by decide, by decide⟩

/-- Hosts without any file. -/
def newHosts : Text → AppDir := fun _ => ⟨"infra", none, none, fun _ => none⟩

/-- The second run ends while it copies the template to the second server. -/
theorem interrupted_history : ∃ fleet,
    Rollout.History (infraVisit Awk.plain fun _ _ => []) nodeIps newHosts
      [firstRelease, secondRelease] fleet ∧
    fleet.mark server1Ip = .complete 1 ∧ fleet.mark server2Ip = .stopped 1 ∧
    fleet.mark server3Ip = .complete 0 := by
  obtain ⟨hFirstQuotes, hFirst⟩ := releases_ready firstRelease (by simp)
  obtain ⟨hSecondQuotes, hSecond⟩ := releases_ready secondRelease (by simp)
  obtain ⟨fleet, hRun⟩ := run_completes Awk.plain (fun _ _ => []) hFirstQuotes hFirst 0 nodeIps
    ⟨newHosts, fun _ => .untouched⟩
  have hMarks := hRun.reaches (by decide) rfl
  obtain ⟨dir, hVisit⟩ := visit_completes Awk.plain (fun _ _ => []) hSecondQuotes hSecond server1Ip
    (fleet.state server1Ip)
  refine ⟨_, .run (.run .start hRun) (.next hVisit (.stop (.inl ⟨none, rfl⟩))), ?_, ?_, ?_⟩
  · rw [(Rollout.Fleet.visit_other _ (by decide) _ _).1, Rollout.Fleet.visit_mark_self]
    rfl
  · rw [Rollout.Fleet.visit_mark_self]
    rfl
  · rw [(Rollout.Fleet.visit_other _ (by decide) _ _).1,
      (Rollout.Fleet.visit_other _ (by decide) _ _).1]
    exact hMarks server3Ip (by decide)

/-- The first server has the renewed certificate, and the third one still the first. -/
theorem interrupted_served : ∃ fleet,
    Rollout.History (infraVisit Awk.plain fun _ _ => []) nodeIps newHosts
      [firstRelease, secondRelease] fleet ∧
    (fleet.state server1Ip).tls "tls.crt" = some [99] ∧
    (fleet.state server3Ip).tls "tls.crt" = some [97] ∧
    NamesFiles server3Ip (fleet.state server3Ip) := by
  obtain ⟨fleet, history, hFirst, -, hThird⟩ := interrupted_history
  have free : PathFree Awk.plain (roleEnv firstRelease.secrets server3Ip) slotLines :=
    ⟨by decide +kernel, slotLines_ends⟩
  obtain ⟨-, hServed, -⟩ := infra_history (fun _ => rfl)
    (fun release h => (releases_ready release h).1) history
  obtain ⟨release, hRelease, served, -⟩ := hServed server1Ip 1 hFirst
  obtain ⟨release', hRelease', served', names⟩ := hServed server3Ip 0 hThird
  cases hRelease
  cases hRelease'
  refine ⟨fleet, history, ?_, ?_, names free⟩
  · refine (served.files mainPair (by decide)).1.trans ?_
    decide
  · refine (served'.files mainPair (by decide)).1.trans ?_
    decide

end HelloCounter.Deploy
