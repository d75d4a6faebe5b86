import HelloCounter.Deploy.RenderInfra
import HelloCounter.Library.Shell

/-! The command that `.github/workflows/deploy-infra.yml` sends to a host over ssh: exports of the
job's values in single quotes, and a call of `scripts/deploy/deploy-infra.sh`.  The host's shell
reads it back, and the script runs with the variables that the job means it to have. -/

namespace HelloCounter.Deploy

/-! ### The job -/

def appDir : Text := "/home/deploy/yral-onboarding-hello-world-counter-prakash".toList

def server1Ip : Text := "94.130.13.115".toList

def server2Ip : Text := "88.99.151.102".toList

def server3Ip : Text := "138.201.129.173".toList

/-- The hosts in the order of the loop. -/
def nodeIps : List Text := [server1Ip, server2Ip, server3Ip]

def boolText (b : Bool) : Text := if b then "true".toList else "false".toList

/-- The exports of the command in their order.  Sentry and storj-interface are on the first server
only, which is also the source of the nofeebooking certificates. -/
def infraExports (secrets : Env) (nodeIp : Text) : List (String × Text) :=
  [("APP_DIR", appDir), ("INFRA_DIR", appDir ++ "/infra".toList),
    ("CADDY_TLS_CERT_PEM_B64", secrets "CADDY_TLS_CERT_PEM_B64"),
    ("CADDY_TLS_KEY_PEM_B64", secrets "CADDY_TLS_KEY_PEM_B64"),
    ("NOFEEBOOKING_TLS_CERT_PEM_B64", secrets "NOFEEBOOKING_TLS_CERT_PEM_B64"),
    ("NOFEEBOOKING_TLS_KEY_PEM_B64", secrets "NOFEEBOOKING_TLS_KEY_PEM_B64"),
    ("NOFEEBOOKING_WWW_TLS_CERT_PEM_B64", secrets "NOFEEBOOKING_WWW_TLS_CERT_PEM_B64"),
    ("NOFEEBOOKING_WWW_TLS_KEY_PEM_B64", secrets "NOFEEBOOKING_WWW_TLS_KEY_PEM_B64"),
    ("SENTRY_ENABLED", boolText (nodeIp = server1Ip)),
    ("NOFEEBOOKING_ENABLED", "true".toList),
    ("NOFEEBOOKING_TLS_SOURCE_HOST", boolText (nodeIp = server1Ip)),
    ("NOFEEBOOKING_SERVER_IP", server1Ip), ("NOFEEBOOKING_BACKEND_2", server2Ip),
    ("NOFEEBOOKING_BACKEND_3", server3Ip), ("STORJ_ENABLED", boolText (nodeIp = server1Ip)),
    ("STORJ_SERVER_IP", server1Ip)]

/-- The command's text once the job's shell has expanded it and joined its lines. -/
def infraCommand (secrets : Env) (nodeIp : Text) : Text :=
  ((infraExports secrets nodeIp).flatMap fun assignment =>
    Shell.exportCommand assignment.1 assignment.2 ++ List.replicate 6 ' ') ++
  ("cd '".toList ++ appDir ++ "' && bash scripts/deploy/deploy-infra.sh".toList)

/-! ### The host -/

/-- A host on which `deploy-infra.sh` does what `script` says.  The workflow creates `APP_DIR` and
copies the scripts there before it sends the command. -/
def infraHost (script : Env → AppDir → Bool × AppDir) : Shell.Machine AppDir where
  isDir dir _ := dir = appDir
  call call dir :=
    if call.commands = [["bash".toList, "scripts/deploy/deploy-infra.sh".toList]] ∧
        call.cwd = appDir then script call.env dir
    else (false, dir)

/-- `deploy-infra.sh`, with what `docker compose up` returns. -/
def deployInfra (awk : Awk) (composeUp : Bool) (env : Env) (dir : AppDir) : Bool × AppDir :=
  match renderInfra awk env dir with
  | .ok _ dir' => (composeUp, dir')
  | .error _ dir' => (false, dir')

/-! ### What the script receives -/

/-- No secret contains a single quote. -/
def NoQuotes (secrets : Env) : Prop :=
  ∀ pair ∈ [mainPair, nofeebookingPair, wwwPair],
    '\'' ∉ secrets pair.certVar ∧ '\'' ∉ secrets pair.keyVar

/-- The variables of a script that the command starts in a session with the variables `login`. -/
def nodeEnv (login secrets : Env) (nodeIp : Text) : Env :=
  Shell.assign login (infraExports secrets nodeIp)

theorem exports_names (secrets : Env) (nodeIp : Text) :
    (infraExports secrets nodeIp).map Prod.fst = (infraExports (fun _ => []) []).map Prod.fst := rfl

theorem exports_bareName (secrets : Env) (nodeIp : Text) :
    ∀ assignment ∈ infraExports secrets nodeIp, Shell.BareName assignment.1 := by
  have names : ∀ name ∈ (infraExports (fun _ => []) []).map Prod.fst, Shell.BareName name := by
    decide
  intro assignment h
  refine names assignment.1 ?_
  rw [← exports_names secrets nodeIp]
  exact List.mem_map_of_mem h

theorem exports_nodup (secrets : Env) (nodeIp : Text) :
    ((infraExports secrets nodeIp).map Prod.fst).Nodup := by
  rw [exports_names]
  decide

theorem boolText_noQuote (b : Bool) : '\'' ∉ boolText b := by
  cases b <;> decide

theorem exports_noQuote {secrets : Env} (noQuotes : NoQuotes secrets) (nodeIp : Text) :
    ∀ assignment ∈ infraExports secrets nodeIp, '\'' ∉ assignment.2 := by
  have hMain := noQuotes mainPair (by simp)
  have hNofeebooking := noQuotes nofeebookingPair (by simp)
  have hWww := noQuotes wwwPair (by simp)
  have flag := boolText_noQuote (nodeIp = server1Ip)
  simp only [infraExports, List.forall_mem_cons]
  exact ⟨by decide, by decide, hMain.1, hMain.2, hNofeebooking.1, hNofeebooking.2, hWww.1, hWww.2,
    flag, by decide, flag, by decide, by decide, by decide, flag, by decide, by simp⟩

/-- The end of the command. -/
theorem lex_tail : (Shell.lex ("cd '".toList ++ appDir ++
      "' && bash scripts/deploy/deploy-infra.sh".toList) >>= Shell.parse) =
    some [[[["cd".toList, appDir]],
      [["bash".toList, "scripts/deploy/deploy-infra.sh".toList]]]] := by
  decide

theorem script_runs (script : Env → AppDir → Bool × AppDir) (session : Shell.Session)
    (dir : AppDir) (hCwd : session.cwd = appDir) :
    Shell.runPipeline (infraHost script)
        [["bash".toList, "scripts/deploy/deploy-infra.sh".toList]] session dir =
      ((script session.env dir).1, session, (script session.env dir).2) := by
  have hCall : (infraHost script).call ⟨[["bash".toList, "scripts/deploy/deploy-infra.sh".toList]],
      session.env, session.cwd⟩ dir = script session.env dir := by
    unfold infraHost
    exact if_pos ⟨rfl, hCwd⟩
  rw [Shell.runPipeline_call (by decide) (by decide), Shell.runCall, hCall]

/-- The host's shell calls the script once, with the job's values. -/
theorem infraCommand_runs {secrets : Env} (noQuotes : NoQuotes secrets) (nodeIp home : Text)
    (script : Env → AppDir → Bool × AppDir) (login : Env) (dir : AppDir) :
    ∃ session, Shell.run (infraHost script) (infraCommand secrets nodeIp) ⟨login, home⟩ dir =
      some ((script (nodeEnv login secrets nodeIp) dir).1, session,
        (script (nodeEnv login secrets nodeIp) dir).2) := by
  have hResolve : ∀ session : Shell.Session, session.resolve appDir = appDir :=
    fun session => if_pos (by decide)
  have hCd : ∀ session, Shell.runPipeline (infraHost script) [["cd".toList, appDir]] session dir =
      (true, { session with cwd := session.resolve appDir }, dir) :=
    fun session => Shell.runPipeline_cd (decide_eq_true (hResolve session))
  rw [infraCommand, Shell.run_exports (exports_bareName secrets nodeIp)
    (exports_noQuote noQuotes nodeIp) fun c => List.eq_of_mem_replicate, Shell.run, lex_tail,
    Option.map_some, Shell.runLists, Shell.runAndList_ok (hCd _), Shell.runAndList_last,
    script_runs]
  · exact ⟨_, rfl⟩
  · exact hResolve ⟨nodeEnv login secrets nodeIp, home⟩

end HelloCounter.Deploy
