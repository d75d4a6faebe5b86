import HelloCounter.Deploy.ExportCert

/-! Failed runs of `render-infra-caddyfile.sh`.  The steps for the pairs write or remove one file
after the other, and a value that does not decode stops the script after its file is written. -/

namespace HelloCounter.Deploy

def HalfSet (env : Env) (pair : CertPair) : Prop :=
  ¬(env pair.certVar = [] ↔ env pair.keyVar = [])

def Undecodable (value : Text) : Prop := value ≠ [] ∧ (Base64.decode value).2 = false

/-- The host uses the pair, and one half of it alone is set or a half that is set does not
decode. -/
def Unusable (env : Env) (pair : CertPair) : Prop :=
  (pair = mainPair ∨ sourceHost env = false) ∧
    (HalfSet env pair ∨ Undecodable (env pair.certVar) ∨ Undecodable (env pair.keyVar))

/-- What a run does to one certificate file, and whether it goes on afterwards. -/
structure FileStep where
  file : String
  content : Option Bytes
  valid : Bool

def FileStep.apply (step : FileStep) (dir : AppDir) : AppDir :=
  { dir with tls := Function.update dir.tls step.file step.content }

def FileStep.run (step : FileStep) : Script Unit := fun dir =>
  if step.valid then .ok () (step.apply dir) else .error "base64: invalid input" (step.apply dir)

def runSteps : List FileStep → Script Unit
  | [] => pure ()
  | step :: steps => do
    step.run
    runSteps steps

def FileStep.write (file : String) (value : Text) : FileStep :=
  ⟨file, some (Base64.decode value).1, (Base64.decode value).2⟩

def FileStep.remove (file : String) : FileStep := ⟨file, none, true⟩

def pairSteps (env : Env) (pair : CertPair) : List FileStep :=
  if configured env pair then
    [.write pair.crt (env pair.certVar), .write pair.key (env pair.keyVar)]
  else [.remove pair.crt, .remove pair.key]

/-- The steps of a run in order. -/
def fileSteps (env : Env) : List FileStep :=
  pairSteps env mainPair ++ pairSteps env nofeebookingPair ++ pairSteps env wwwPair

/-- A value does not decode, and up to the first such value each file already is what the run makes
of it. -/
def FailsInPlace (tls : String → Option Bytes) : List FileStep → Prop
  | [] => False
  | step :: steps => tls step.file = step.content ∧ (step.valid = false ∨ FailsInPlace tls steps)

/-! ### The script as its steps -/

variable {env : Env} {dir dir' : AppDir}

theorem runSteps_append (first second : List FileStep) :
    runSteps (first ++ second) = runSteps first >>= fun _ => runSteps second := by
  induction first with
  | nil =>
    show runSteps second = (pure () : Script Unit) >>= fun _ => runSteps second
    rw [pure_bind]
  | cons step first ih =>
    rw [List.cons_append, runSteps, runSteps, ih, bind_assoc]

theorem removeFile_eq (file : String) : removeFile file = (FileStep.remove file).run := rfl

theorem decodeTo_eq (value : Text) (file : String) :
    decodeTo value file = (FileStep.write file value).run := rfl

theorem place_eq_steps {pair : CertPair} (hUsed : configured env pair = pair.complete env) :
    pair.place env = runSteps (pairSteps env pair) >>= fun _ => pure (directive env pair) := by
  unfold CertPair.place pairSteps directive
  rw [hUsed]
  split
  · simp only [runSteps, decodeTo_eq, bind_assoc, pure_bind]
  · simp only [runSteps, CertPair.remove, removeFile_eq, bind_assoc, pure_bind]

theorem remove_eq_steps {pair : CertPair} (hUnused : configured env pair = false) :
    pair.remove = runSteps (pairSteps env pair) := by
  unfold CertPair.remove pairSteps
  rw [if_neg (by simp [hUnused])]
  simp only [runSteps, removeFile_eq, bind_pure_unit]

theorem nofeebookingTls_eq_steps : nofeebookingTls env =
    runSteps (pairSteps env nofeebookingPair ++ pairSteps env wwwPair) >>= fun _ =>
      pure (directive env nofeebookingPair, directive env wwwPair) := by
  have hNofeebooking := configured_other env (show nofeebookingPair ≠ mainPair by decide)
  have hWww := configured_other env (show wwwPair ≠ mainPair by decide)
  unfold nofeebookingTls
  by_cases hSource : sourceHost env = true
  · simp only [hSource, Bool.not_true, Bool.and_false] at hNofeebooking hWww
    rw [if_pos hSource, remove_eq_steps hNofeebooking, remove_eq_steps hWww, runSteps_append,
      directive, directive, hNofeebooking, hWww, bind_assoc]
    rfl
  · simp only [hSource, Bool.not_false, Bool.and_true] at hNofeebooking hWww
    rw [if_neg hSource, place_eq_steps hNofeebooking, place_eq_steps hWww, runSteps_append]
    simp only [bind_assoc, pure_bind]

theorem renderInfra_eq_steps (awk : Awk) (env : Env) : renderInfra awk env =
    readTemplate "missing Caddyfile template at " "/Caddyfile.template" >>= fun template =>
      checkMainPair env >>= fun _ => runSteps (fileSteps env) >>= fun _ =>
        writeCaddyfile (renderLines awk (Vars.ofEnv awk env (directive env mainPair)
          (directive env nofeebookingPair) (directive env wwwPair)) false template) := by
  unfold renderInfra mainTls fileSteps
  rw [nofeebookingTls_eq_steps, place_eq_steps (configured_mainPair env), List.append_assoc,
    runSteps_append (pairSteps env mainPair)]
  simp only [bind_assoc, pure_bind]

/-! ### Failures that change nothing -/

theorem FileStep.keeps (step : FileStep) {file : String} (h : file ≠ step.file) :
    Keeps file step.run := by
  intro dir
  unfold run
  cases step.valid <;> exact Function.update_of_ne h _ _

theorem runSteps_keeps {file : String} {steps : List FileStep}
    (h : file ∉ steps.map FileStep.file) : Keeps file (runSteps steps) := by
  induction steps with
  | nil => exact .pure file ()
  | cons step steps ih =>
    rw [List.map_cons, List.mem_cons, not_or] at h
    exact (step.keeps h.1).bind fun _ => ih h.2

theorem runSteps_cons (step : FileStep) (steps : List FileStep) (dir : AppDir) :
    runSteps (step :: steps) dir =
      if step.valid then runSteps steps (step.apply dir)
      else .error "base64: invalid input" (step.apply dir) := by
  show EStateM.bind step.run _ dir = _
  unfold EStateM.bind FileStep.run
  cases step.valid <;> rfl

theorem runSteps_cons_file {step : FileStep} {steps : List FileStep}
    (fresh : step.file ∉ steps.map FileStep.file) (dir : AppDir) :
    (dirAfter (runSteps (step :: steps) dir)).tls step.file = step.content := by
  have hApply : (step.apply dir).tls step.file = step.content := Function.update_self ..
  rw [runSteps_cons]
  split
  · exact (runSteps_keeps fresh _).trans hApply
  · exact hApply

theorem FileStep.apply_of_inPlace {step : FileStep} (h : dir.tls step.file = step.content) :
    step.apply dir = dir := by
  rw [apply, ← h, Function.update_eq_self]

theorem runSteps_error_iff {steps : List FileStep} (distinct : (steps.map FileStep.file).Nodup) :
    (∃ e, runSteps steps dir = .error e dir) ↔ FailsInPlace dir.tls steps := by
  induction steps with
  | nil => exact ⟨fun ⟨_, h⟩ => (nomatch h), False.elim⟩
  | cons step steps ih =>
    obtain ⟨fresh, distinct⟩ := List.nodup_cons.mp distinct
    constructor
    · rintro ⟨e, h⟩
      have hFile := runSteps_cons_file fresh dir
      rw [h] at hFile
      have hContent : dir.tls step.file = step.content := hFile
      refine ⟨hContent, ?_⟩
      rw [runSteps_cons, FileStep.apply_of_inPlace hContent] at h
      cases hValid : step.valid with
      | false => exact .inl rfl
      | true =>
        rw [hValid] at h
        exact .inr ((ih distinct).mp ⟨e, h⟩)
    · rintro ⟨hContent, hStops⟩
      rw [runSteps_cons, FileStep.apply_of_inPlace hContent]
      cases hValid : step.valid with
      | false => exact ⟨_, rfl⟩
      | true =>
        rw [hValid] at hStops
        exact (ih distinct).mpr (hStops.resolve_left Bool.noConfusion)

theorem fileSteps_distinct (env : Env) : ((fileSteps env).map FileStep.file).Nodup := by
  have hPair : ∀ pair, (pairSteps env pair).map FileStep.file = [pair.crt, pair.key] := by
    intro pair
    unfold pairSteps
    split <;> rfl
  rw [fileSteps, List.map_append, List.map_append, hPair, hPair, hPair]
  decide

/-! ### The whole script -/

theorem bind_error {α β : Type} {script : Script α} {next : α → Script β} {e : String}
    (h : script dir = .error e dir') : (script >>= next) dir = .error e dir' := by
  show EStateM.bind script next dir = _
  rw [EStateM.bind, h]

theorem checkMainPair_of_halfSet (halfSet : HalfSet env mainPair) (dir : AppDir) :
    ∃ e, checkMainPair env dir = .error e dir := by
  unfold HalfSet at halfSet
  unfold checkMainPair
  by_cases hCert : env mainPair.certVar = []
  · have hKey : env mainPair.keyVar ≠ [] := fun h => halfSet ⟨fun _ => h, fun _ => hCert⟩
    rw [if_neg (by simp [hCert]), if_pos (by simp [hCert, hKey])]
    exact ⟨_, rfl⟩
  · have hKey : env mainPair.keyVar = [] := by
      by_contra h
      exact halfSet ⟨fun h' => absurd h' hCert, fun h' => absurd h' h⟩
    rw [if_pos (by simp [hCert, hKey])]
    exact ⟨_, rfl⟩

/-- A run fails before its first step, or is its steps and the rendering. -/
theorem renderInfra_cases (awk : Awk) (env : Env) (dir : AppDir) :
    ((dir.template = none ∨ HalfSet env mainPair) ∧ ∃ e, renderInfra awk env dir = .error e dir) ∨
      (dir.template ≠ none ∧ ¬HalfSet env mainPair) ∧ ∃ lines, renderInfra awk env dir =
        (runSteps (fileSteps env) >>= fun _ => writeCaddyfile lines) dir := by
  rw [renderInfra_eq_steps]
  cases hTemplate : dir.template with
  | none =>
    have hRead : ∃ e, readTemplate "missing Caddyfile template at " "/Caddyfile.template" dir =
        .error e dir := by
      rw [readTemplate, hTemplate]
      exact ⟨_, rfl⟩
    obtain ⟨e, hRead⟩ := hRead
    exact .inl ⟨.inl rfl, e, bind_error hRead⟩
  | some template =>
    rw [bind_run (readTemplate_run hTemplate _ _)]
    by_cases halfSet : HalfSet env mainPair
    · obtain ⟨e, hCheck⟩ := checkMainPair_of_halfSet halfSet dir
      exact .inl ⟨.inr halfSet, e, bind_error hCheck⟩
    · have hCheck := checkMainPair_eq_ok.mpr ⟨not_not.mp halfSet, Eq.refl dir⟩
      rw [bind_run hCheck]
      exact .inr ⟨⟨Option.some_ne_none _, halfSet⟩, _, rfl⟩

/-- A run fails and changes nothing if and only if the template is missing, the main pair is half
set, or some used value does not decode and each file up to it already is what the run makes of
it. -/
theorem renderInfra_unchanged_iff (awk : Awk) (env : Env) (dir : AppDir) :
    (∃ e, renderInfra awk env dir = .error e dir) ↔
      dir.template = none ∨ HalfSet env mainPair ∨ FailsInPlace dir.tls (fileSteps env) := by
  rcases renderInfra_cases awk env dir with ⟨h, hError⟩ | ⟨⟨hTemplate, halfSet⟩, lines, hRun⟩
  · exact ⟨fun _ => h.imp id .inl, fun _ => hError⟩
  · simp only [hTemplate, halfSet, false_or]
    rw [hRun, ← runSteps_error_iff (fileSteps_distinct env)]
    cases hSteps : runSteps (fileSteps env) dir with
    | error e dir' => rw [bind_error hSteps]
    | ok _ dir' =>
      rw [bind_run hSteps]
      constructor
      · rintro ⟨e, h⟩
        cases h
      · rintro ⟨e, h⟩
        cases h

/-! ### A pair whose values decode -/

theorem runSteps_valid {steps : List FileStep} (distinct : (steps.map FileStep.file).Nodup)
    (valid : ∀ step ∈ steps, step.valid = true) (dir : AppDir) :
    ∃ dir', runSteps steps dir = .ok () dir' ∧
      ∀ step ∈ steps, dir'.tls step.file = step.content := by
  induction steps generalizing dir with
  | nil => exact ⟨dir, rfl, by simp⟩
  | cons step steps ih =>
    rw [List.map_cons, List.nodup_cons] at distinct
    obtain ⟨dir', hRun, hContents⟩ := ih distinct.2 (fun other hMem => valid other (.tail _ hMem))
      (step.apply dir)
    have hSteps : runSteps (step :: steps) dir = .ok () dir' := by
      rw [runSteps_cons, if_pos (valid step List.mem_cons_self), hRun]
    have hFirst := runSteps_cons_file distinct.1 dir
    rw [hSteps] at hFirst
    refine ⟨dir', hSteps, fun other hMem => ?_⟩
    rcases List.mem_cons.mp hMem with rfl | hMem
    · exact hFirst
    · exact hContents other hMem

/-- Steps in a row that decode are all taken, or none of them is. -/
theorem runSteps_block {first block last : List FileStep}
    (distinct : ((first ++ block ++ last).map FileStep.file).Nodup)
    (valid : ∀ step ∈ block, step.valid = true) (dir : AppDir) :
    (∀ step ∈ block, (dirAfter (runSteps (first ++ block ++ last) dir)).tls step.file =
        dir.tls step.file) ∨
      ∀ step ∈ block, (dirAfter (runSteps (first ++ block ++ last) dir)).tls step.file =
        step.content := by
  rw [List.map_append, List.map_append, List.nodup_append] at distinct
  obtain ⟨hInner, -, hLast⟩ := distinct
  obtain ⟨-, hBlock, hFirst⟩ := List.nodup_append.mp hInner
  have apartFirst : ∀ step ∈ block, step.file ∉ first.map FileStep.file := fun step hMem hFile =>
    hFirst step.file hFile step.file (List.mem_map_of_mem hMem) rfl
  have apartLast : ∀ step ∈ block, step.file ∉ last.map FileStep.file := fun step hMem hFile =>
    hLast step.file (List.mem_append_right _ (List.mem_map_of_mem hMem)) step.file hFile rfl
  rw [List.append_assoc, runSteps_append, runSteps_append]
  cases hRun : runSteps first dir with
  | error e dir' =>
    refine .inl fun step hMem => ?_
    have hKept := runSteps_keeps (apartFirst step hMem) dir
    rw [hRun] at hKept
    rw [bind_error hRun]
    exact hKept
  | ok _ dir' =>
    obtain ⟨dir'', hBlockRun, hContents⟩ := runSteps_valid hBlock valid dir'
    refine .inr fun step hMem => ?_
    rw [bind_run hRun, bind_run hBlockRun, runSteps_keeps (apartLast step hMem) dir'']
    exact hContents step hMem

theorem renderInfra_tls (awk : Awk) (env : Env) (dir : AppDir) :
    (dirAfter (renderInfra awk env dir)).tls = dir.tls ∨
      (dirAfter (renderInfra awk env dir)).tls = (dirAfter (runSteps (fileSteps env) dir)).tls := by
  rcases renderInfra_cases awk env dir with ⟨-, e, hError⟩ | ⟨-, lines, hRun⟩
  · rw [hError]
    exact .inl rfl
  · rw [hRun]
    refine .inr ?_
    cases hSteps : runSteps (fileSteps env) dir with
    | error e dir' => rw [bind_error hSteps]
    | ok _ dir' =>
      rw [bind_run hSteps]
      rfl

/-- A pair that the host uses and whose values decode is written whole or left as it was, also by a
run that fails. -/
theorem renderInfra_pair (awk : Awk) {env : Env} {pair : CertPair}
    (hPair : pair ∈ [mainPair, nofeebookingPair, wwwPair]) (hUsed : configured env pair = true)
    (hCert : (Base64.decode (env pair.certVar)).2 = true)
    (hKey : (Base64.decode (env pair.keyVar)).2 = true) (dir : AppDir) :
    ((dirAfter (renderInfra awk env dir)).tls pair.crt = dir.tls pair.crt ∧
      (dirAfter (renderInfra awk env dir)).tls pair.key = dir.tls pair.key) ∨
    ((dirAfter (renderInfra awk env dir)).tls pair.crt = some (Base64.decode (env pair.certVar)).1 ∧
      (dirAfter (renderInfra awk env dir)).tls pair.key =
        some (Base64.decode (env pair.keyVar)).1) := by
  have hSteps : ∃ first last, fileSteps env = first ++ pairSteps env pair ++ last := by
    simp only [List.mem_cons, List.not_mem_nil, or_false] at hPair
    rcases hPair with rfl | rfl | rfl
    · exact ⟨[], _, by rw [fileSteps, List.nil_append, List.append_assoc]⟩
    · exact ⟨_, _, rfl⟩
    · exact ⟨_, [], by rw [fileSteps, List.append_nil]⟩
  obtain ⟨first, last, hSteps⟩ := hSteps
  have hBlock : pairSteps env pair =
      [.write pair.crt (env pair.certVar), .write pair.key (env pair.keyVar)] := if_pos hUsed
  have hValid : ∀ step ∈ pairSteps env pair, step.valid = true := by
    rw [hBlock]
    simp [FileStep.write, hCert, hKey]
  have hDistinct := fileSteps_distinct env
  rw [hSteps] at hDistinct
  have hCrtStep : .write pair.crt (env pair.certVar) ∈ pairSteps env pair := by simp [hBlock]
  have hKeyStep : .write pair.key (env pair.keyVar) ∈ pairSteps env pair := by simp [hBlock]
  rcases renderInfra_tls awk env dir with hTls | hTls
  · exact .inl ⟨by rw [hTls], by rw [hTls]⟩
  · rw [hTls, hSteps]
    exact (runSteps_block hDistinct hValid dir).imp (fun h => ⟨h _ hCrtStep, h _ hKeyStep⟩)
      fun h => ⟨h _ hCrtStep, h _ hKeyStep⟩

/-! ### A certificate that does not decode -/

def brokenEnv : Env
  | "CADDY_TLS_CERT_PEM_B64" => ['!']
  | "CADDY_TLS_KEY_PEM_B64" => ['A', 'A', '=', '=']
  | _ => []

def servedDir : AppDir :=
  ⟨"infra", some [], some [], fun file => if file = "tls.crt" then some [97] else none⟩

theorem brokenEnv_truncates : ¬∀ (awk : Awk) (env : Env) (dir : AppDir),
    (∃ pair ∈ [mainPair, nofeebookingPair, wwwPair], Unusable env pair) →
      ∃ e, renderInfra awk env dir = .error e dir := by
  intro h
  have unusable : Unusable brokenEnv mainPair := ⟨.inl rfl, .inr (.inl ⟨by decide, by decide⟩)⟩
  obtain ⟨e, hRun⟩ := h Awk.plain brokenEnv servedDir ⟨mainPair, by simp, unusable⟩
  have hFile : (dirAfter (renderInfra Awk.plain brokenEnv servedDir)).tls "tls.crt" =
      servedDir.tls "tls.crt" := by
    rw [hRun]
    rfl
  exact absurd hFile (by decide)

end HelloCounter.Deploy
